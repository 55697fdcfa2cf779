import Parley.Proofs.Rtp.Passage

/-!
# `Parley/Proofs/Rtp/Layout.lean` — which bytes a packet can be read from

Writing lays a packet out in one way. Reading accepts that layout, and the same one with an
extension or padding that the first byte announces (`Layout`); it skips both, so they are what a
packet does not keep of the bytes it was read from. Hence a packet that was read can be written and
read again, and it is written as the bytes it was read from exactly if these announce nothing to
skip (`read_as_written`).
-/

set_option autoImplicit false

namespace Parley.Rtp

namespace Packet

/-! ## What the first byte announces -/

/-- Whether the bytes of a packet announce that padding ends them. -/
def announcesPadding (bytes : Octets) : Bool := (bytes.headD 0).toNat.testBit 5

/-- Whether the bytes of a packet announce an extension of the header. -/
def announcesExtension (bytes : Octets) : Bool := (bytes.headD 0).toNat.testBit 4

/-- What a header has room for: four bits for the number of sources, seven for the payload type. -/
structure Fits (p : Packet) : Prop where
  csrc : p.csrc.length ≤ 15
  payloadType : p.payloadType < 128

theorem announcesPadding_cons (first : UInt8) (rest : Octets) :
    announcesPadding (first :: rest) = decide (first.toNat / 32 % 2 = 1) := by
  rw [announcesPadding, List.headD_cons, Nat.testBit_eq_decide_div_mod_eq]

theorem announcesExtension_cons (first : UInt8) (rest : Octets) :
    announcesExtension (first :: rest) = decide (first.toNat / 16 % 2 = 1) := by
  rw [announcesExtension, List.headD_cons, Nat.testBit_eq_decide_div_mod_eq]

/-! ## Reading taken apart -/

/-- What follows the sources, without the extension and the padding that the first byte announces.
-/
def trim (first : UInt8) (tail : Octets) : Except Malformed Octets := do
  let body ← if first.toNat / 16 % 2 = 1 then dropExtension tail else pure tail
  if first.toNat / 32 % 2 = 1 then dropPadding body else pure body

theorem trim_of_plain {first : UInt8} (hextension : ¬ first.toNat / 16 % 2 = 1)
    (hpadding : ¬ first.toNat / 32 % 2 = 1) (tail : Octets) : trim first tail = .ok tail := by
  simp only [trim, if_neg hextension, if_neg hpadding]
  rfl

theorem takeWords_eq_some {n : Nat} {bytes rest : Octets} {words : List UInt32}
    (h : takeWords n bytes = some (words, rest)) :
    words.length = n ∧ bytes = words.flatMap Octets.be32 ++ rest := by
  induction n, bytes using takeWords.induct generalizing words with
  | case1 bytes =>
    obtain ⟨rfl, rfl⟩ : [] = words ∧ bytes = rest := by simpa [takeWords] using h
    exact ⟨rfl, rfl⟩
  | case2 n a b c d bytes ih =>
    obtain ⟨⟨words', rest'⟩, htake, heq⟩ := Option.map_eq_some_iff.mp h
    obtain ⟨rfl, rfl⟩ : Octets.readBe32 a b c d :: words' = words ∧ rest' = rest := by
      simpa using heq
    obtain ⟨hlength, hbytes⟩ := ih htake
    refine ⟨congrArg (· + 1) hlength, ?_⟩
    rw [List.flatMap_cons, Octets.be32_readBe32, hbytes]
    rfl
  | case3 n bytes hshort => simp [takeWords] at h

/-- How bytes are laid out that a packet is read from: as the packet is written, but that the first
byte may announce parts to skip, and that these parts are there. -/
structure Layout (bytes : Octets) (p : Packet) (first : UInt8) (tail : Octets) : Prop where
  whole : bytes = first :: p.secondByte :: (Octets.be16 p.sequence ++ Octets.be32 p.timestamp
    ++ Octets.be32 p.ssrc ++ p.csrc.flatMap Octets.be32 ++ tail)
  version : first.toNat / 64 = 2
  count : first.toNat % 16 = p.csrc.length
  payloadType : p.payloadType < 128
  payload : trim first tail = .ok p.payload

/-- The marker and the payload type take up all of their byte. -/
theorem secondByte_of_read {p : Packet} {b : UInt8}
    (hmarker : p.marker = decide (b.toNat / 128 = 1))
    (htype : p.payloadType = UInt8.ofNat (b.toNat % 128)) : p.secondByte = b := by
  have hb := b.toNat_lt
  have hnumber : p.payloadType.toNat = b.toNat % 128 := by
    rw [htype, UInt8.toNat_ofNat']
    omega
  apply UInt8.toNat_inj.mp
  rw [secondByte, UInt8.toNat_ofNat', hnumber, hmarker]
  by_cases hset : b.toNat / 128 = 1
  · rw [if_pos (decide_eq_true hset)]
    omega
  · rw [if_neg (by simpa using hset)]
    omega

section Decode

variable {b0 b1 s0 s1 t0 t1 t2 t3 r0 r1 r2 r3 : UInt8} {rest tail : Octets} {csrc : List UInt32}

/-- Once the sources are taken off, a packet is read by trimming what follows them. -/
theorem decode_of_takeWords (hversion : b0.toNat / 64 = 2)
    (hwords : takeWords (b0.toNat % 16) rest = some (csrc, tail)) :
    decode (b0 :: b1 :: s0 :: s1 :: t0 :: t1 :: t2 :: t3 :: r0 :: r1 :: r2 :: r3 :: rest) =
      trim b0 tail >>= fun payload => pure
        { marker := b1.toNat / 128 = 1
          payloadType := UInt8.ofNat (b1.toNat % 128)
          sequence := Octets.readBe16 s0 s1
          timestamp := Octets.readBe32 t0 t1 t2 t3
          ssrc := Octets.readBe32 r0 r1 r2 r3
          csrc
          payload } := by
  unfold decode trim
  dsimp only
  rw [if_neg (not_not_intro hversion), hwords]
  by_cases hextension : b0.toNat / 16 % 2 = 1 <;> by_cases hpadding : b0.toNat / 32 % 2 = 1 <;>
    simp only [hextension, hpadding, if_true, if_false, bind_assoc, pure_bind]

theorem takeWords_of_decode {p : Packet}
    (h : decode (b0 :: b1 :: s0 :: s1 :: t0 :: t1 :: t2 :: t3 :: r0 :: r1 :: r2 :: r3 :: rest) =
      .ok p) :
    b0.toNat / 64 = 2 ∧ ∃ csrc tail, takeWords (b0.toNat % 16) rest = some (csrc, tail) := by
  unfold decode at h
  dsimp only at h
  by_cases hversion : b0.toNat / 64 = 2
  · refine ⟨hversion, ?_⟩
    cases hwords : takeWords (b0.toNat % 16) rest with
    | none =>
      rw [if_neg (not_not_intro hversion), hwords] at h
      cases h
    | some taken => exact ⟨taken.1, taken.2, rfl⟩
  · rw [if_pos hversion] at h
    cases h

end Decode

theorem layout_of_decode {bytes : Octets} {p : Packet} (h : decode bytes = .ok p) :
    ∃ first tail, Layout bytes p first tail := by
  match bytes, h with
  | b0 :: b1 :: s0 :: s1 :: t0 :: t1 :: t2 :: t3 :: r0 :: r1 :: r2 :: r3 :: rest, h =>
    obtain ⟨hversion, csrc, tail, hwords⟩ := takeWords_of_decode h
    rw [decode_of_takeWords hversion hwords] at h
    obtain ⟨hcount, hrest⟩ := takeWords_eq_some hwords
    cases hpayload : trim b0 tail with
    | error e =>
      rw [hpayload] at h
      cases h
    | ok payload =>
      rw [hpayload] at h
      cases h
      refine ⟨b0, tail, ?_, hversion, hcount.symm, ?_, hpayload⟩
      · rw [secondByte_of_read (b := b1) rfl rfl, Octets.be16_readBe16, Octets.be32_readBe32,
          Octets.be32_readBe32, hrest]
        rfl
      · apply UInt8.lt_iff_toNat_lt.mpr
        show (UInt8.ofNat (b1.toNat % 128)).toNat < 128
        rw [UInt8.toNat_ofNat']
        omega

namespace Layout

variable {bytes tail : Octets} {p : Packet} {first : UInt8}

theorem fits (h : Layout bytes p first tail) : p.Fits := by
  refine ⟨?_, h.payloadType⟩
  have hcount := h.count
  omega

/-- The first byte is the one that the packet is written with unless it announces something. -/
theorem firstByte_eq_iff (h : Layout bytes p first tail) :
    p.firstByte = first ↔ announcesPadding bytes = false ∧ announcesExtension bytes = false := by
  have hfirst := toNat_firstByte (Nat.lt_succ_of_le h.fits.csrc)
  have hversion := h.version
  have hcount := h.count
  rw [h.whole, announcesPadding_cons, announcesExtension_cons, decide_eq_false_iff_not,
    decide_eq_false_iff_not, ← UInt8.toNat_inj, hfirst]
  omega

/-- Where nothing is announced, nothing is skipped. -/
theorem tail_eq_payload (h : Layout bytes p first tail)
    (hplain : announcesPadding bytes = false ∧ announcesExtension bytes = false) :
    tail = p.payload := by
  rw [h.whole, announcesPadding_cons, announcesExtension_cons, decide_eq_false_iff_not,
    decide_eq_false_iff_not] at hplain
  have hpayload := h.payload
  rw [trim_of_plain hplain.2 hplain.1] at hpayload
  cases hpayload
  rfl

theorem encode_eq_iff (h : Layout bytes p first tail) :
    p.encode = bytes ↔ announcesPadding bytes = false ∧ announcesExtension bytes = false := by
  constructor
  · intro hsame
    refine h.firstByte_eq_iff.mp ?_
    have hhead : p.encode.head? = bytes.head? := by rw [hsame]
    rw [h.whole] at hhead
    exact Option.some.inj hhead
  · intro hplain
    have hfirst := h.firstByte_eq_iff.mpr hplain
    have htail := h.tail_eq_payload hplain
    rw [h.whole, ← hfirst, htail]
    simp only [encode, List.cons_append, List.nil_append, List.append_assoc]

end Layout

/-- **A packet keeps what it is, and its bytes keep what they announce.** A packet that fits its
header is read as it was written. Whatever bytes a packet is read from, it fits its header, so that
it can be written and read again; and it is written as the bytes that it was read from exactly if
these announce neither padding nor an extension. A frame of audio comes through the whole way of a
message as it is. -/
theorem read_as_written (p : Packet) (bytes : Octets) (f : Frame) :
    (p.Fits → decode p.encode = .ok p) ∧
    (decode bytes = .ok p →
      p.Fits ∧ decode p.encode = .ok p ∧
      (p.encode = bytes ↔
        announcesPadding bytes = false ∧ announcesExtension bytes = false)) ∧
    carry f = some f := by
  have written : p.Fits → decode p.encode = .ok p := by
    intro hfits
    exact decode_encode (Nat.lt_succ_of_le hfits.csrc) hfits.payloadType
  refine ⟨written, fun hread => ?_, carry_eq f⟩
  obtain ⟨first, tail, hlayout⟩ := layout_of_decode hread
  exact ⟨hlayout.fits, written hlayout.fits, hlayout.encode_eq_iff⟩

/-- A packet with one source that came with an extension of one word and two bytes of padding, and a
frame without samples. -/
theorem read_as_written_of_padded :
    let bytes : Octets := [0xB1, 0x88, 0, 7, 0, 0, 0, 160, 0, 0, 0, 9, 0, 0, 0, 42,
      0xBE, 0xDE, 0, 1, 1, 2, 3, 4, 0x55, 0x66, 0, 2]
    let p : Packet :=
      { marker := true, payloadType := 8, sequence := 7, timestamp := 160, ssrc := 9, csrc := [42]
        payload := [0x55, 0x66] }
    let f : Frame := { sequence := 65535, timestamp := 0, ssrc := 9, codec := .l16, payload := [] }
    p.Fits ∧ decode bytes = .ok p ∧ decode p.encode = .ok p ∧ p.encode ≠ bytes ∧
      carry f = some f := by
  intro bytes p f
  have hfits : p.Fits := ⟨by decide, by decide⟩
  have hread : decode bytes = .ok p := by decide +kernel
  obtain ⟨hwritten, hagain, hcarry⟩ := read_as_written p bytes f
  refine ⟨hfits, hread, hwritten hfits, fun hsame => ?_, hcarry⟩
  have hplain := (hagain hread).2.2.mp hsame
  exact absurd hplain.1 (by decide)

end Packet

end Parley.Rtp
