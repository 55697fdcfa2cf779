import Parley.Proofs.Rtp.Chunks

/-!
# `Parley/Proofs/Rtp/Numbering.lean` — numbers and times over a whole stream

Whatever is done with a packetizer, and in whatever order, the frames that come out are counted
without a gap, and each stands as many samples after the one before as that one holds
(`calls_in_step`). A codec may be taken up in the middle of a frame: what was pending at the other
rate goes, so that a frame is all of one codec and of that codec's length.
-/

set_option autoImplicit false

namespace Parley

open Parley.Audio

/-- How many bytes a sample takes. -/
def Codec.sampleBytes : Codec → Nat
  | .pcmu | .pcma => 1
  | .l16 => 2

theorem Audio.length_encode (codec : Codec) (samples : List Int16) :
    (encode codec samples).length = codec.sampleBytes * samples.length := by
  cases codec with
  | pcmu => rw [encode, List.length_map, Codec.sampleBytes, Nat.one_mul]
  | pcma => rw [encode, List.length_map, Codec.sampleBytes, Nat.one_mul]
  | l16 => exact (Octets.length_ofSamplesBe samples).trans (Nat.mul_comm _ _)

/-- How many bytes a frame takes. -/
def Codec.frameBytes : Codec → Nat
  | .pcmu | .pcma => 160
  | .l16 => 640

theorem Codec.sampleBytes_mul_samplesPerFrame (codec : Codec) :
    codec.sampleBytes * codec.samplesPerFrame = codec.frameBytes := by
  cases codec <;> rfl

/-- How many samples a frame holds. -/
def Frame.sampleCount (frame : Frame) : Nat := frame.payload.length / frame.codec.sampleBytes

/-- A frame of this codec that holds as many samples as its frames do. -/
structure Frame.Whole (codec : Codec) (frame : Frame) : Prop where
  spoken : frame.codec = codec
  filled : ∃ samples : List Int16, samples.length = codec.samplesPerFrame ∧
    frame.payload = encode codec samples
  bytes : frame.payload.length = codec.frameBytes

namespace Rtp

namespace Packetizer

/-! ## Where a stream stands -/

/-- The number and the time of the next frame. -/
structure Place where
  sequence : UInt16
  timestamp : UInt32

def Place.past (here : Place) (frame : Frame) : Place where
  sequence := here.sequence + 1
  timestamp := here.timestamp + UInt32.ofNat frame.sampleCount

def place (p : Packetizer) : Place := ⟨p.sequence, p.timestamp⟩

/-- Frames of one stream that lead from one place to another, each where the one before ends. -/
inductive Leads (ssrc : UInt32) : Place → List Frame → Place → Prop where
  | nil (here : Place) : Leads ssrc here [] here
  | cons {here there : Place} {frame : Frame} {rest : List Frame} (hssrc : frame.ssrc = ssrc)
      (hsequence : frame.sequence = here.sequence) (htimestamp : frame.timestamp = here.timestamp)
      (hrest : Leads ssrc (here.past frame) rest there) : Leads ssrc here (frame :: rest) there

variable {ssrc : UInt32} {here there beyond : Place} {frames more : List Frame}

theorem Leads.trans (h : Leads ssrc here frames there) (hmore : Leads ssrc there more beyond) :
    Leads ssrc here (frames ++ more) beyond := by
  induction h with
  | nil => exact hmore
  | cons hssrc hsequence htimestamp _ ih => exact .cons hssrc hsequence htimestamp (ih hmore)

theorem Leads.getElem_sequence (h : Leads ssrc here frames there) (k : Nat)
    (hk : k < frames.length) :
    frames[k].ssrc = ssrc ∧ frames[k].sequence = here.sequence + UInt16.ofNat k := by
  induction h generalizing k with
  | nil => simp at hk
  | cons hssrc hsequence htimestamp hrest ih =>
    cases k with
    | zero => exact ⟨hssrc, by simpa using hsequence⟩
    | succ k =>
      obtain ⟨hssrc, hnumber⟩ := ih k (by simpa using hk)
      refine ⟨hssrc, hnumber.trans ?_⟩
      rw [Place.past, UInt16.ofNat_add, UInt16.add_assoc, UInt16.add_comm 1]
      rfl

theorem Leads.head_timestamp (h : Leads ssrc here frames there) (hpos : 0 < frames.length) :
    frames[0].timestamp = here.timestamp := by
  cases h with
  | nil => simp at hpos
  | cons _ _ htimestamp _ => exact htimestamp

theorem Leads.getElem_timestamp (h : Leads ssrc here frames there) (k : Nat)
    (hk : k + 1 < frames.length) :
    frames[k + 1].timestamp = frames[k].timestamp + UInt32.ofNat frames[k].sampleCount := by
  induction h generalizing k with
  | nil => simp at hk
  | cons hssrc hsequence htimestamp hrest ih =>
    cases k with
    | zero =>
      rw [List.getElem_cons_succ, hrest.head_timestamp (by simpa using hk), List.getElem_cons_zero,
        htimestamp]
      rfl
    | succ k => exact ih k (by simpa using hk)

variable {p : Packetizer} {chunks : List (List Int16)} {frame : Frame}

theorem sampleCount_nextFrame (p : Packetizer) (samples : List Int16) :
    (p.nextFrame samples).1.sampleCount = samples.length := by
  rw [Frame.sampleCount, nextFrame, length_encode]
  refine Nat.mul_div_cancel_left _ ?_
  cases p.codec <;> decide

theorem leads_frames (p : Packetizer) (chunks : List (List Int16)) :
    Leads p.ssrc p.place (p.frames chunks).1 (p.frames chunks).2.place := by
  induction chunks generalizing p with
  | nil => exact .nil _
  | cons chunk rest ih =>
    have hplace : p.place.past (p.nextFrame chunk).1 = (p.nextFrame chunk).2.place := by
      rw [Place.past, sampleCount_nextFrame]
      rfl
    exact .cons rfl rfl rfl (hplace ▸ ih (p.nextFrame chunk).2)

theorem whole_of_mem_frames (hfull : ∀ chunk ∈ chunks, chunk.length = p.codec.samplesPerFrame)
    (h : frame ∈ (p.frames chunks).1) : frame.Whole p.codec := by
  have hmem := List.mem_map_of_mem (f := fun f : Frame => (f.ssrc, f.codec, f.payload)) h
  rw [(frames_fst p chunks).2] at hmem
  obtain ⟨chunk, hchunk, heq⟩ := List.mem_map.mp hmem
  simp only [Prod.mk.injEq] at heq
  obtain ⟨-, hcodec, hpayload⟩ := heq
  have hlength := hfull chunk hchunk
  refine ⟨hcodec.symm, ⟨chunk, hlength, hpayload.symm⟩, ?_⟩
  rw [← hpayload, length_encode, hlength, Codec.sampleBytes_mul_samplesPerFrame]

/-! ## One call after the other -/

/-- What is done with a packetizer. -/
inductive Call where
  | push (interleaved : List Int16)
  | setCodec (codec : Codec)
  | flush

def call (p : Packetizer) : Call → List Frame × Packetizer
  | .push interleaved => p.push interleaved
  | .setCodec codec => ([], p.setCodec codec)
  | .flush => (p.flush.1.toList, p.flush.2)

/-- All that comes out in a row of calls. -/
def callAll (p : Packetizer) : List Call → List Frame × Packetizer
  | [] => ([], p)
  | c :: rest =>
    let (frames, p) := p.call c
    let (more, p) := callAll p rest
    (frames ++ more, p)

/-- The codec that calls lead to, and what was pushed since it was taken up. -/
structure Stint where
  codec : Codec
  pieces : List (List Int16) := []

def Stint.step (s : Stint) : Call → Stint
  | .push interleaved => { s with pieces := s.pieces ++ [interleaved] }
  | .setCodec codec => if codec = s.codec then s else { codec }
  | .flush => s

def stint (codec : Codec) (calls : List Call) : Stint := calls.foldl Stint.step { codec }

/-- What a stint's pieces are at the rate of its codec. -/
def Stint.resampled (s : Stint) (inputRate : UInt32) (channels : UInt16) :
    List Int16 × Resampler :=
  (Resampler.new .double inputRate s.codec.clockRate).processAll (s.pieces.map (downmix channels))

/-- What stays the same in every call. -/
def source (p : Packetizer) : UInt32 × UInt32 × UInt16 := (p.ssrc, p.inputRate, p.channels)

/-- A call makes frames of full chunks, one after the other. -/
structure Makes (p : Packetizer) (c : Call) (chunks : List (List Int16)) : Prop where
  frames : (p.call c).1 = (p.frames chunks).1
  place : (p.call c).2.place = (p.frames chunks).2.place
  source : (p.call c).2.source = p.source
  full : ∀ chunk ∈ chunks, chunk.length = p.codec.samplesPerFrame

theorem makes_push (p : Packetizer) (interleaved : List Int16) :
    ∃ chunks, p.Makes (.push interleaved) chunks := by
  obtain ⟨chunks, hcuts, -⟩ := cuts_push p interleaved
  refine ⟨chunks, hcuts.frames, ?_, ?_, hcuts.full⟩
  · rw [call, hcuts.state]
    rfl
  · rw [call, hcuts.state, frames_snd]
    rfl

theorem makes_setCodec (p : Packetizer) (codec : Codec) : p.Makes (.setCodec codec) [] := by
  refine ⟨rfl, ?_, ?_, by simp⟩
  · rw [call, setCodec]
    split <;> rfl
  · rw [call, setCodec]
    split <;> rfl

theorem makes_flush (hshort : p.pending.length < p.codec.samplesPerFrame) :
    p.Makes .flush (if p.pending = [] then [] else [p.lastChunk]) := by
  by_cases hpending : p.pending = []
  · have hflush : p.call .flush = ([], p) := by simp [call, flush, hpending]
    rw [if_pos hpending]
    refine ⟨?_, ?_, ?_, by simp⟩ <;> rw [hflush] <;> rfl
  · have hflush : p.call .flush = ([(p.nextFrame p.lastChunk).1],
        { (p.nextFrame p.lastChunk).2 with pending := [] }) := by
      rw [call, flush_of_pending hpending hshort]
      rfl
    have hfull : ∀ chunk ∈ [p.lastChunk], chunk.length = p.codec.samplesPerFrame := by
      intro chunk hchunk
      rw [List.mem_singleton.mp hchunk]
      exact length_lastChunk hshort
    rw [if_neg hpending]
    refine ⟨?_, ?_, ?_, hfull⟩ <;> rw [hflush] <;> rfl

/-- A packetizer in the middle of a stint. What is pending is the end of what was pushed in it, and
too short for a frame. -/
structure Serves (p : Packetizer) (s : Stint) : Prop where
  codec : p.codec = s.codec
  resampler : p.resampler = (s.resampled p.inputRate p.channels).2
  pending : p.pending <:+ (s.resampled p.inputRate p.channels).1
  short : p.pending.length < s.codec.samplesPerFrame

variable {s : Stint}

theorem serves_new (codec : Codec) (inputRate : UInt32) (channels : UInt16) (ssrc : UInt32)
    (sequence : UInt16) (timestamp : UInt32) :
    (new codec inputRate channels ssrc sequence timestamp).Serves { codec } :=
  ⟨rfl, rfl, List.suffix_refl _, codec.samplesPerFrame_pos⟩

theorem Serves.push (h : p.Serves s) (interleaved : List Int16) :
    (p.push interleaved).2.Serves (s.step (.push interleaved)) := by
  obtain ⟨chunks, hcuts, hresampler⟩ := cuts_push p interleaved
  obtain ⟨hcodec, hchannels⟩ := hcuts.codec
  have hrate : (p.push interleaved).2.inputRate = p.inputRate := by
    rw [hcuts.state, frames_snd]
    rfl
  have hresampled : (s.step (.push interleaved)).resampled p.inputRate p.channels =
      ((s.resampled p.inputRate p.channels).1 ++
          (p.resampler.process (downmix p.channels interleaved)).1,
        (p.resampler.process (downmix p.channels interleaved)).2) := by
    rw [h.resampler]
    simp only [Stint.resampled, Stint.step, List.map_append, List.map_singleton,
      Resampler.processAll_concat]
  refine ⟨hcodec.trans h.codec, ?_, ?_, ?_⟩
  · rw [hrate, hchannels, hresampled, hresampler]
  · rw [hrate, hchannels, hresampled]
    -- the rest of what was pending and of the new samples, which end the old and the new ones
    have hrest : (p.push interleaved).2.pending <:+
        p.pending ++ (p.resampler.process (downmix p.channels interleaved)).1 :=
      ⟨chunks.flatten, hcuts.whole⟩
    obtain ⟨earlier, hearlier⟩ := h.pending
    refine hrest.trans ⟨earlier, ?_⟩
    rw [← List.append_assoc, hearlier]
  · exact h.codec ▸ hcuts.short

theorem Serves.setCodec (h : p.Serves s) (codec : Codec) :
    (p.setCodec codec).Serves (s.step (.setCodec codec)) := by
  rw [Packetizer.setCodec, Stint.step, h.codec]
  split
  · exact h
  · exact ⟨rfl, rfl, List.suffix_refl _, codec.samplesPerFrame_pos⟩

theorem Serves.flush (h : p.Serves s) : p.flush.2.Serves (s.step .flush) := by
  by_cases hpending : p.pending = []
  · have hflush : p.flush = (none, p) := by simp [Packetizer.flush, hpending]
    rw [hflush]
    exact h
  · rw [flush_of_pending hpending (h.codec ▸ h.short)]
    exact ⟨h.codec, h.resampler, List.nil_suffix, s.codec.samplesPerFrame_pos⟩

theorem Serves.call (h : p.Serves s) (c : Call) : (p.call c).2.Serves (s.step c) := by
  cases c with
  | push interleaved => exact h.push interleaved
  | setCodec codec => exact h.setCodec codec
  | flush => exact h.flush

theorem Serves.makes (h : p.Serves s) (c : Call) : ∃ chunks, p.Makes c chunks := by
  cases c with
  | push interleaved => exact makes_push p interleaved
  | setCodec codec => exact ⟨[], makes_setCodec p codec⟩
  | flush => exact ⟨_, makes_flush (h.codec ▸ h.short)⟩

theorem callAll_concat (p : Packetizer) (calls : List Call) (c : Call) :
    p.callAll (calls ++ [c]) =
      ((p.callAll calls).1 ++ ((p.callAll calls).2.call c).1, ((p.callAll calls).2.call c).2) := by
  induction calls generalizing p with
  | nil => simp only [callAll, List.nil_append, List.append_nil]
  | cons first rest ih =>
    simp only [List.cons_append, callAll, ih, List.append_assoc]

/-- In all calls together a stream goes on from where it stood. -/
theorem Serves.callAll (h : p.Serves s) (calls : List Call) :
    Leads p.ssrc p.place (p.callAll calls).1 (p.callAll calls).2.place ∧
      (p.callAll calls).2.source = p.source ∧
      (p.callAll calls).2.Serves (calls.foldl Stint.step s) := by
  induction calls using List.reverseRecOn with
  | nil => exact ⟨.nil _, rfl, h⟩
  | append_singleton calls c ih =>
    obtain ⟨hleads, hsource, hserves⟩ := ih
    obtain ⟨chunks, hmakes⟩ := hserves.makes c
    have hssrc : (p.callAll calls).2.ssrc = p.ssrc := congrArg Prod.fst hsource
    have hnext := leads_frames (p.callAll calls).2 chunks
    rw [hssrc, ← hmakes.frames, ← hmakes.place] at hnext
    rw [callAll_concat, List.foldl_append]
    exact ⟨hleads.trans hnext, hmakes.source.trans hsource, hserves.call c⟩

/-- **A stream keeps step.** After any calls: the frames are numbered without a gap from the first
number on; the first stands at the first time, and each of the others as many samples after the one
before as that one holds; what comes out of the next call is of the codec taken up last, in frames
of that codec's length; and what stays pending is the end of what was pushed since that codec was
taken up, too short for a frame, so that a flush fills it up and loses none of it. -/
theorem calls_in_step (codec : Codec) (inputRate : UInt32) (channels : UInt16) (ssrc : UInt32)
    (sequence : UInt16) (timestamp : UInt32) (calls : List Call) :
    let p := (new codec inputRate channels ssrc sequence timestamp).callAll calls
    let s := stint codec calls
    (∀ k, ∀ h : k < p.1.length,
      p.1[k].ssrc = ssrc ∧ p.1[k].sequence = sequence + UInt16.ofNat k) ∧
    (∀ h : 0 < p.1.length, p.1[0].timestamp = timestamp) ∧
    (∀ k, ∀ h : k + 1 < p.1.length,
      p.1[k + 1].timestamp = p.1[k].timestamp + UInt32.ofNat p.1[k].sampleCount) ∧
    p.2.codec = s.codec ∧
    (∀ c, ∀ frame ∈ (p.2.call c).1, frame.Whole s.codec) ∧
    p.2.pending <:+ (s.resampled inputRate channels).1 ∧
    p.2.pending.length < s.codec.samplesPerFrame ∧
    p.2.flush.1.map (·.payload) =
      if p.2.pending = [] then none
      else some (encode s.codec
        (p.2.pending ++ List.replicate (s.codec.samplesPerFrame - p.2.pending.length) 0)) := by
  intro p s
  obtain ⟨hleads, hsource, hserves⟩ :=
    (serves_new codec inputRate channels ssrc sequence timestamp).callAll calls
  have hinput : p.2.inputRate = inputRate ∧ p.2.channels = channels :=
    ⟨congrArg (·.2.1) hsource, congrArg (·.2.2) hsource⟩
  have hcodec : p.2.codec = s.codec := hserves.codec
  refine ⟨fun k h => hleads.getElem_sequence k h, fun h => hleads.head_timestamp h,
    fun k h => hleads.getElem_timestamp k h, hcodec, fun c frame hframe => ?_, ?_,
    hserves.short, ?_⟩
  · obtain ⟨chunks, hmakes⟩ := hserves.makes c
    rw [hmakes.frames] at hframe
    exact hcodec ▸ whole_of_mem_frames hmakes.full hframe
  · have hpending := hserves.pending
    rwa [hinput.1, hinput.2] at hpending
  · split
    · rename_i hpending
      simp [flush, hpending]
    · rename_i hpending
      rw [flush_of_pending hpending (hcodec ▸ hserves.short), ← hcodec]
      rfl

end Packetizer

end Rtp

end Parley
