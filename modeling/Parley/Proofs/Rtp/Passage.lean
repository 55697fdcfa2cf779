import Parley.Proofs.Rtp.Chunks
import Parley.Rtp.Packet
import Parley.Wire.Envelope

/-!
# `Parley/Proofs/Rtp/Passage.lean` — samples from one end to the other

The whole way of a stream of linear samples: cut into frames, each frame made a packet, written as
a message, read again, put in order and decoded. What comes out at the far end is what went in, and
the silence that fills the last frame (`passage_eq`).

Each station is taken on its own: a packet can be read as it was written (`Packet.decode_encode`), a
frame survives the way through a message (`carry_eq`), and a jitter buffer hands on what comes in
order (`JitterBuffer.playThrough_eq`).
-/

set_option autoImplicit false

namespace Parley.Rtp

open Parley.Audio Parley.Wire

/-! ## A packet -/

namespace Packet

theorem takeWords_flatMap (words : List UInt32) (rest : Octets) :
    takeWords words.length (words.flatMap Octets.be32 ++ rest) = some (words, rest) := by
  induction words with
  | nil => rfl
  | cons word words ih =>
    show (takeWords words.length (words.flatMap Octets.be32 ++ rest)).map _ = _
    rw [ih]
    simp only [Option.map_some, Octets.readBe32_be32]

theorem toNat_firstByte {p : Packet} (h : p.csrc.length < 16) :
    p.firstByte.toNat = 128 + p.csrc.length := by
  rw [firstByte, UInt8.toNat_ofNat']
  omega

theorem toNat_secondByte {p : Packet} (h : p.payloadType < 128) :
    p.secondByte.toNat = (if p.marker then 128 else 0) + p.payloadType.toNat := by
  have hlt : p.payloadType.toNat < 128 := h
  rw [secondByte, UInt8.toNat_ofNat']
  split <;> omega

/-- A packet that fits its header is read as it was written. -/
theorem decode_encode {p : Packet} (hcsrc : p.csrc.length < 16) (htype : p.payloadType < 128) :
    decode p.encode = .ok p := by
  have hfirst := toNat_firstByte hcsrc
  have hsecond := toNat_secondByte htype
  have hlt : p.payloadType.toNat < 128 := htype
  have hversion : p.firstByte.toNat / 64 = 2 := by omega
  have hcount : p.firstByte.toNat % 16 = p.csrc.length := by omega
  have hextension : ¬ p.firstByte.toNat / 16 % 2 = 1 := by omega
  have hpadding : ¬ p.firstByte.toNat / 32 % 2 = 1 := by omega
  have hmarker : (decide (p.secondByte.toNat / 128 = 1)) = p.marker := by
    rw [hsecond]
    cases p.marker <;> simp <;> omega
  have hnumber : UInt8.ofNat (p.secondByte.toNat % 128) = p.payloadType := by
    apply UInt8.toNat_inj.mp
    rw [hsecond, UInt8.toNat_ofNat']
    split <;> omega
  have hshape : p.encode = p.firstByte :: p.secondByte :: Octets.high p.sequence ::
      Octets.low p.sequence :: Octets.byte 3 p.timestamp :: Octets.byte 2 p.timestamp ::
      Octets.byte 1 p.timestamp :: Octets.byte 0 p.timestamp :: Octets.byte 3 p.ssrc ::
      Octets.byte 2 p.ssrc :: Octets.byte 1 p.ssrc :: Octets.byte 0 p.ssrc ::
      (p.csrc.flatMap Octets.be32 ++ p.payload) := by
    simp [encode, Octets.be16, Octets.be32]
  rw [hshape]
  simp only [decode, hversion, hcount, takeWords_flatMap, if_neg hextension, if_neg hpadding,
    hmarker, hnumber, Octets.readBe16_be16, Octets.readBe32_be32]
  rfl

end Packet

/-! ## A frame on its way -/

/-- What becomes of a frame that is sent as a packet in a message and read from there. -/
def carry (f : Frame) : Option Frame :=
  match Envelope.decode (Envelope.encodeMedia (Packet.ofFrame f).encode) with
  | .ok (.media bytes) =>
    match Packet.decode bytes with
    | .ok packet => packet.toFrame?
    | .error _ => none
  | _ => none

theorem carry_eq (f : Frame) : carry f = some f := by
  have hpacket : Packet.decode (Packet.ofFrame f).encode = .ok (Packet.ofFrame f) := by
    refine Packet.decode_encode (Nat.zero_lt_succ _) ?_
    show f.codec.payloadType < 128
    cases f.codec <;> decide
  have hmessage : Envelope.decode (Envelope.encodeMedia (Packet.ofFrame f).encode) =
      .ok (.media (Packet.ofFrame f).encode) := rfl
  unfold carry
  rw [hmessage]
  dsimp only
  rw [hpacket]
  exact Packet.toFrame?_ofFrame f

/-! ## The whole way -/

/-- The samples that a frame is heard as, if its payload is sound. -/
def heardAs (f : Frame) : Option (List Int16) := (decode f.codec f.payload).toOption

/-- What is heard of a stream that is pushed in pieces and flushed, if nothing goes wrong. -/
def passage (config : JitterConfig) (p : Packetizer) (pieces : List (List Int16)) :
    Option (List Int16) := do
  let received ← (p.packetize pieces).mapM carry
  let heard ← ((JitterBuffer.new config).playThrough received).mapM heardAs
  return heard.flatten

theorem mapM_eq_some {α β : Type} {f : α → Option β} {g : α → β} {xs : List α}
    (h : ∀ x ∈ xs, f x = some (g x)) : xs.mapM f = some (xs.map g) := by
  induction xs with
  | nil => rfl
  | cons x xs ih =>
    rw [List.mapM_cons, h x List.mem_cons_self, ih fun y hy => h y (List.mem_cons_of_mem _ hy)]
    rfl

/-- The frames of a stream of linear samples are heard as the chunks that they were made of. -/
theorem mapM_heardAs_frames {p : Packetizer} (hcodec : p.codec = .l16)
    {chunks : List (List Int16)} (hsome : ∀ chunk ∈ chunks, chunk ≠ []) :
    (p.frames chunks).1.mapM heardAs = some chunks := by
  have hframes := (p.frames_fst chunks).2
  rw [hcodec] at hframes
  calc (p.frames chunks).1.mapM heardAs
      = ((p.frames chunks).1.map fun f => (f.ssrc, f.codec, f.payload)).mapM
          (fun part => (decode part.2.1 part.2.2).toOption) := by
        rw [List.mapM_map]
        rfl
    _ = chunks.mapM (fun chunk => (decode .l16 (encode .l16 chunk)).toOption) := by
        rw [hframes, List.mapM_map]
        rfl
    _ = some (chunks.map id) := by
        refine mapM_eq_some fun chunk hchunk => ?_
        rw [decode_encode_l16 (hsome chunk hchunk)]
        rfl
    _ = some chunks := by
        rw [List.map_id]

/-- A stream that takes samples as they are is heard as what is pushed into it. -/
theorem passage_of_linear {config : JitterConfig} (hdepth : 1 ≤ config.targetDepth)
    (hmax : config.targetDepth ≤ config.maxPackets) {p : Packetizer} (hcodec : p.codec = .l16)
    (hmono : p.channels ≤ 1) (hrate : p.resampler.isPassthrough = true) (hfresh : p.pending = [])
    (pieces : List (List Int16)) :
    ∃ silence < 320,
      passage config p pieces = some (pieces.flatten ++ List.replicate silence 0) := by
  have hsize : p.codec.samplesPerFrame = 320 := by
    rw [hcodec]
    decide
  have hresampled :
      (p.resampler.processAll (pieces.map (downmix p.channels))).1 = pieces.flatten := by
    have hmixed : pieces.map (downmix p.channels) = pieces :=
      (List.map_congr_left fun piece _ => if_pos hmono).trans (List.map_id' pieces)
    rw [hmixed, Resampler.processAll_of_isPassthrough hrate]
  obtain ⟨chunks, silence, hframes, hwhole, hfull, hsilence⟩ :=
    p.packetize_eq pieces (hfresh ▸ p.codec.samplesPerFrame_pos)
  rw [hsize] at hfull hsilence
  refine ⟨silence, hsilence, ?_⟩
  have hcarried : (p.packetize pieces).mapM carry = some (p.frames chunks).1 := by
    rw [hframes, mapM_eq_some fun f _ => carry_eq f, List.map_id']
  have hplayed := JitterBuffer.playThrough_eq config hdepth hmax (p.frames_fst chunks).1
  have hheard : (p.frames chunks).1.mapM heardAs = some chunks := by
    refine mapM_heardAs_frames hcodec fun chunk hchunk hnil => ?_
    have hlength := hfull chunk hchunk
    rw [hnil] at hlength
    cases hlength
  have hflatten : chunks.flatten = pieces.flatten ++ List.replicate silence 0 := by
    rw [hwhole, hresampled, hfresh, List.nil_append]
  simp only [passage, hcarried, hplayed, hheard, Option.bind_eq_bind, Option.bind_some,
    Option.pure_def, hflatten]

/-- **What is said is what is heard.** However a stream of linear samples is cut into pieces, and
whatever number and time it starts at, all its samples come out at the far end, in order and
without an error, and after them no more silence than fills one frame. -/
theorem passage_eq (config : JitterConfig) (hdepth : 1 ≤ config.targetDepth)
    (hmax : config.targetDepth ≤ config.maxPackets) (ssrc : UInt32) (sequence : UInt16)
    (timestamp : UInt32) (pieces : List (List Int16)) :
    ∃ silence < 320,
      passage config (Packetizer.new .l16 16000 1 ssrc sequence timestamp) pieces =
        some (pieces.flatten ++ List.replicate silence 0) := by
  have hrate : (Packetizer.new .l16 16000 1 ssrc sequence timestamp).resampler.isPassthrough =
      true := by
    show (Resampler.new (.significant 53) 16000 16000).isPassthrough = true
    exact Resampler.isPassthrough_new 53 (by decide)
  exact passage_of_linear hdepth hmax rfl (UInt16.le_refl 1) hrate rfl pieces

/-- Three frames, of which the second and the third come after the wrap of number and time. -/
theorem passage_eq_wrap :
    (1 ≤ ({} : JitterConfig).targetDepth ∧
      ({} : JitterConfig).targetDepth ≤ ({} : JitterConfig).maxPackets) ∧
    ∃ silence < 320,
      passage {} (Packetizer.new .l16 16000 1 7 65535 4294967295)
          [List.replicate 200 1, [], List.replicate 500 (-2)] =
        some ([List.replicate 200 1, [], List.replicate 500 (-2)].flatten
          ++ List.replicate silence 0) :=
  ⟨⟨by decide, by decide⟩, passage_eq {} (by decide) (by decide) 7 65535 4294967295 _⟩

end Parley.Rtp
