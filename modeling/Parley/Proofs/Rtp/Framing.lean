import Mathlib.Data.List.GetD
import Parley.Proofs.Rtp.Chunks

/-!
# `Parley/Proofs/Rtp/Framing.lean` — the frames of a stream, one by one

The frames of a stream that is pushed in pieces and flushed, told by what is in each of them: the
samples at the codec's rate stand in the frames in a row, the last frame is filled up with silence,
and number and time of a frame follow from its place (`packetize_eq_framed`).
-/

set_option autoImplicit false

namespace Parley.Rtp.Packetizer

open Parley.Audio

/-- The frame at a place of a stream of samples. Where the samples have ended it is silent. -/
def frameAt (p : Packetizer) (samples : List Int16) (place : Nat) : Frame :=
  let size := p.codec.samplesPerFrame
  { sequence := p.sequence + UInt16.ofNat place
    timestamp := p.timestamp + UInt32.ofNat (size * place)
    ssrc := p.ssrc
    codec := p.codec
    payload := encode p.codec ((List.range size).map fun i => samples.getD (size * place + i) 0) }

/-- The frames that hold a stream of samples. -/
def framed (p : Packetizer) (samples : List Int16) : List Frame :=
  let size := p.codec.samplesPerFrame
  (List.range ((samples.length + size - 1) / size)).map (p.frameAt samples)

variable {p : Packetizer} {samples : List Int16}

theorem frameAt_append_silence (p : Packetizer) (samples : List Int16) (silence : Nat) :
    p.frameAt (samples ++ List.replicate silence 0) = p.frameAt samples := by
  have hget : ∀ i, (samples ++ List.replicate silence 0).getD i 0 = samples.getD i 0 := by
    intro i
    rcases Nat.lt_or_ge i samples.length with hlt | hge
    · rw [List.getD_append _ _ _ _ hlt]
    · rw [List.getD_append_right _ _ _ _ hge, List.getD_eq_default samples _ hge]
      rcases Nat.lt_or_ge (i - samples.length) silence with hinside | houtside
      · exact List.getD_replicate _ hinside
      · refine List.getD_eq_default _ _ ?_
        rw [List.length_replicate]
        exact houtside
  funext place
  simp only [frameAt, hget]

theorem frameAt_zero {chunk : List Int16} (h : chunk.length = p.codec.samplesPerFrame)
    (rest : List Int16) : p.frameAt (chunk ++ rest) 0 = (p.nextFrame chunk).1 := by
  have hchunk : (List.range p.codec.samplesPerFrame).map
      (fun i => (chunk ++ rest).getD (p.codec.samplesPerFrame * 0 + i) 0) = chunk := by
    refine List.ext_getElem ?_ fun i hi hi' => ?_
    · rw [List.length_map, List.length_range, h]
    · rw [List.getElem_map, List.getElem_range, Nat.mul_zero, Nat.zero_add,
        List.getD_append _ _ _ _ hi', List.getD_eq_getElem _ _ hi']
  unfold frameAt nextFrame
  dsimp only
  rw [hchunk]
  simp

theorem frameAt_succ {chunk : List Int16} (h : chunk.length = p.codec.samplesPerFrame)
    (rest : List Int16) (place : Nat) :
    p.frameAt (chunk ++ rest) (place + 1) = (p.nextFrame chunk).2.frameAt rest place := by
  have hget : ∀ i, (chunk ++ rest).getD (p.codec.samplesPerFrame * (place + 1) + i) 0 =
      rest.getD (p.codec.samplesPerFrame * place + i) 0 := by
    intro i
    have hplace : p.codec.samplesPerFrame * (place + 1) + i =
        chunk.length + (p.codec.samplesPerFrame * place + i) := by
      rw [h, Nat.mul_succ]
      omega
    rw [hplace, List.getD_append_right _ _ _ _ (Nat.le_add_right _ _), Nat.add_sub_cancel_left]
  have hnumber : p.sequence + UInt16.ofNat (place + 1) =
      p.sequence + 1 + UInt16.ofNat place := by
    rw [UInt16.ofNat_add, UInt16.add_assoc, UInt16.add_comm (UInt16.ofNat place)]
    rfl
  have htime : p.timestamp + UInt32.ofNat (p.codec.samplesPerFrame * (place + 1)) =
      p.timestamp + UInt32.ofNat chunk.length +
        UInt32.ofNat (p.codec.samplesPerFrame * place) := by
    rw [h, Nat.mul_succ, Nat.add_comm, UInt32.ofNat_add, UInt32.add_assoc]
  simp only [frameAt, nextFrame, hget, hnumber, htime]

/-- Full chunks become the frames that hold their samples. -/
theorem frames_eq_frameAt (p : Packetizer) {chunks : List (List Int16)}
    (hfull : ∀ chunk ∈ chunks, chunk.length = p.codec.samplesPerFrame) :
    (p.frames chunks).1 = (List.range chunks.length).map (p.frameAt chunks.flatten) := by
  induction chunks generalizing p with
  | nil => rfl
  | cons chunk rest ih =>
    have hchunk := hfull chunk List.mem_cons_self
    have hrest := ih (p.nextFrame chunk).2 fun c hc => hfull c (List.mem_cons_of_mem _ hc)
    have hframes : (p.frames (chunk :: rest)).1 =
        (p.nextFrame chunk).1 :: ((p.nextFrame chunk).2.frames rest).1 := rfl
    rw [hframes, hrest, List.length_cons, List.range_succ_eq_map, List.map_cons, List.map_map,
      List.flatten_cons, frameAt_zero hchunk]
    congr 1
    refine List.map_congr_left fun place _ => ?_
    exact (frameAt_succ hchunk rest.flatten place).symm

/-- A stream that is pushed in pieces and flushed consists of the frames that hold its samples. -/
theorem packetize_eq_framed (hpending : p.pending = []) (pieces : List (List Int16)) :
    p.packetize pieces =
      p.framed (p.resampler.processAll (pieces.map (downmix p.channels))).1 := by
  obtain ⟨chunks, silence, hframes, hflatten, hfull, hsilence⟩ :=
    p.packetize_eq pieces (by rw [hpending]; exact p.codec.samplesPerFrame_pos)
  rw [hpending, List.nil_append] at hflatten
  have hlength : chunks.flatten.length = chunks.length * p.codec.samplesPerFrame := by
    rw [List.length_flatten, List.map_congr_left hfull]
    simp
  have hcount : (((p.resampler.processAll (pieces.map (downmix p.channels))).1.length +
      p.codec.samplesPerFrame - 1) / p.codec.samplesPerFrame) = chunks.length := by
    rw [hflatten, List.length_append, List.length_replicate] at hlength
    refine Nat.div_eq_of_lt_le ?_ ?_
    · omega
    · rw [Nat.succ_mul]
      omega
  rw [hframes, frames_eq_frameAt p hfull, hflatten, frameAt_append_silence, framed, hcount]

end Parley.Rtp.Packetizer
