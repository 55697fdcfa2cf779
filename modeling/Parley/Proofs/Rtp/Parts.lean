import Parley.Proofs.Audio.Mixing
import Parley.Proofs.Rtp.Layout

/-!
# `Parley/Proofs/Rtp/Parts.lean` — which bytes are a packet

The bytes of a packet fall into five parts, of which the first byte says how long the sources are
and whether there is an extension and padding (`Parts.Fit`). Whatever falls into parts that fit is
read, and nothing else is (`decode_eq_ok_iff`). Numbers are spelt highest byte first (`bigEndian`).

What is skipped is told by its bytes alone: an extension by the count in its header, padding by the
last byte of all (`trim_eq_ok_iff`).
-/

set_option autoImplicit false

namespace Parley.Rtp.Packet

open Parley.Audio

/-! ## Numbers -/

/-- The number that bytes spell, the highest byte first. -/
def bigEndian (bytes : Octets) : Nat := bytes.foldl (fun number byte => number * 256 + byte.toNat) 0

/-- The words that bytes spell, four bytes each. -/
def words (bytes : Octets) : List UInt32 := (groups 4 bytes).map fun w => .ofNat (bigEndian w)

theorem ofNat_bigEndian_two (a b : UInt8) :
    UInt16.ofNat (bigEndian [a, b]) = Octets.readBe16 a b := by
  simp [bigEndian, Octets.readBe16]

theorem toNat_readBe16 (a b : UInt8) : (Octets.readBe16 a b).toNat = bigEndian [a, b] := by
  have ha := a.toNat_lt
  have hb := b.toNat_lt
  rw [← ofNat_bigEndian_two, UInt16.toNat_ofNat']
  simp only [bigEndian, List.foldl_cons, List.foldl_nil]
  omega

theorem ofNat_bigEndian_four (a b c d : UInt8) :
    UInt32.ofNat (bigEndian [a, b, c, d]) = Octets.readBe32 a b c d := by
  refine congrArg UInt32.ofNat ?_
  simp only [bigEndian, List.foldl_cons, List.foldl_nil]
  omega

theorem groups_four (a b c d : UInt8) (rest : Octets) :
    groups 4 (a :: b :: c :: d :: rest) = [a, b, c, d] :: groups 4 rest :=
  groups_of_le (by decide) (by simp)

theorem exists_eq_cons_four {bytes : Octets} (h : 4 ≤ bytes.length) :
    ∃ a b c d rest, bytes = a :: b :: c :: d :: rest := by
  obtain _ | ⟨a, _ | ⟨b, _ | ⟨c, _ | ⟨d, rest⟩⟩⟩⟩ := bytes
  case cons.cons.cons.cons => exact ⟨a, b, c, d, rest, rfl⟩
  all_goals exact absurd h (by simp)

/-- Taking words off takes off four bytes for each. -/
theorem takeWords_eq_some_iff {n : Nat} {bytes tail : Octets} {csrc : List UInt32} :
    takeWords n bytes = some (csrc, tail) ↔
      ∃ sources, bytes = sources ++ tail ∧ sources.length = 4 * n ∧ words sources = csrc := by
  induction n, bytes using takeWords.induct generalizing csrc with
  | case1 bytes =>
    constructor
    · intro h
      obtain ⟨rfl, rfl⟩ : [] = csrc ∧ bytes = tail := by simpa [takeWords] using h
      exact ⟨[], rfl, rfl, by simp [words, groups_of_lt]⟩
    · rintro ⟨sources, rfl, hlength, rfl⟩
      obtain rfl := List.eq_nil_of_length_eq_zero hlength
      simp [takeWords, words, groups_of_lt]
  | case2 n a b c d bytes ih =>
    rw [takeWords, Option.map_eq_some_iff]
    constructor
    · rintro ⟨⟨csrc', tail'⟩, htake, heq⟩
      obtain ⟨rfl, rfl⟩ := Prod.mk.inj heq
      obtain ⟨sources, rfl, hlength, rfl⟩ := ih.mp htake
      refine ⟨a :: b :: c :: d :: sources, rfl, by simp only [List.length_cons]; omega, ?_⟩
      rw [words, groups_four, List.map_cons, ofNat_bigEndian_four]
      rfl
    · rintro ⟨sources, hbytes, hlength, rfl⟩
      obtain ⟨_, _, _, _, sources, rfl⟩ := exists_eq_cons_four (by omega : 4 ≤ sources.length)
      obtain ⟨rfl, rfl, rfl, rfl, rfl⟩ :
          a = _ ∧ b = _ ∧ c = _ ∧ d = _ ∧ bytes = sources ++ tail := by
        simpa using hbytes
      refine ⟨(words sources, tail), ih.mpr ⟨sources, rfl, ?_, rfl⟩, ?_⟩
      · simp only [List.length_cons] at hlength
        omega
      · rw [words, words, groups_four, List.map_cons, ofNat_bigEndian_four]
  | case3 n bytes hshort =>
    constructor
    · intro h
      simp [takeWords] at h
    · rintro ⟨sources, rfl, hlength, rfl⟩
      obtain ⟨a, b, c, d, sources, rfl⟩ := exists_eq_cons_four (by omega : 4 ≤ sources.length)
      exact absurd rfl (hshort a b c d (sources ++ tail))

/-! ## Parts that are skipped -/

/-- An extension: two bytes of a profile, two bytes that count its words, and the words. -/
def IsExtension (bytes : Octets) : Prop :=
  ∃ profile count content, bytes = profile ++ count ++ content ∧ profile.length = 2 ∧
    count.length = 2 ∧ content.length = 4 * bigEndian count

/-- Padding of bytes: as many as their last one says, of which it is one itself. -/
def IsPadding (bytes padding : Octets) : Prop :=
  ∃ last, bytes.getLast? = some last ∧ 1 ≤ last.toNat ∧ padding.length = last.toNat

/-- The last byte of padding is the last byte of what it ends. -/
theorem isPadding_append_iff {front padding : Octets} :
    IsPadding (front ++ padding) padding ↔ IsPadding padding padding := by
  refine exists_congr fun last => ?_
  cases padding with
  | nil =>
    constructor
    all_goals
      rintro ⟨-, hpos, hnone⟩
      rw [← hnone] at hpos
      cases hpos
  | cons first rest => rw [List.getLast?_append, List.getLast?_cons, Option.some_or]

theorem dropExtension_eq_ok_iff {bytes rest : Octets} :
    dropExtension bytes = .ok rest ↔
      ∃ extension, bytes = extension ++ rest ∧ IsExtension extension := by
  constructor
  · intro h
    match bytes, h with
    | p :: q :: a :: b :: tail, h =>
      simp only [dropExtension, toNat_readBe16] at h
      split at h
      · cases h
      · rename_i hlength
        obtain rfl := Except.ok.inj h
        refine ⟨p :: q :: a :: b :: tail.take (bigEndian [a, b] * 4), ?_, [p, q], [a, b], _, rfl,
          rfl, rfl, ?_⟩
        · simp
        · rw [List.length_take]
          omega
  · rintro ⟨extension, rfl, profile, count, content, rfl, hprofile, hcount, hcontent⟩
    match profile, count, hprofile, hcount with
    | [p, q], [a, b], _, _ =>
      simp only [List.cons_append, List.nil_append, dropExtension, toNat_readBe16]
      rw [Nat.mul_comm, ← hcontent, if_neg (by simp), List.drop_left]

theorem dropPadding_eq_ok_iff {bytes payload : Octets} :
    dropPadding bytes = .ok payload ↔
      ∃ padding, bytes = payload ++ padding ∧ IsPadding bytes padding := by
  unfold dropPadding
  constructor
  · intro h
    split at h
    · cases h
    · rename_i last hlast
      split at h
      · cases h
      · obtain rfl := Except.ok.inj h
        refine ⟨bytes.drop (bytes.length - last.toNat), (List.take_append_drop _ _).symm, last,
          hlast, ?_, ?_⟩
        · omega
        · rw [List.length_drop]
          omega
  · rintro ⟨padding, hbytes, last, hlast, hpos, hlength⟩
    have htotal : bytes.length = payload.length + last.toNat := by
      rw [hbytes, List.length_append, hlength]
    rw [hlast]
    dsimp only
    rw [if_neg (by omega), htotal, Nat.add_sub_cancel, hbytes, List.take_left]

/-- The extension that a first byte announces. -/
def FitsExtension (first : UInt8) (extension : Octets) : Prop :=
  if first.toNat / 16 % 2 = 1 then IsExtension extension else extension = []

/-- The padding of bytes that a first byte announces. -/
def FitsPadding (first : UInt8) (bytes padding : Octets) : Prop :=
  if first.toNat / 32 % 2 = 1 then IsPadding bytes padding else padding = []

theorem fitsPadding_append_iff {first : UInt8} {front padding : Octets} :
    FitsPadding first (front ++ padding) padding ↔ FitsPadding first padding padding := by
  unfold FitsPadding
  split
  · exact isPadding_append_iff
  · exact Iff.rfl

/-- Takes the extension off that the first byte announces. -/
def skipExtension (first : UInt8) (bytes : Octets) : Except Malformed Octets :=
  if first.toNat / 16 % 2 = 1 then dropExtension bytes else .ok bytes

/-- Takes the padding off that the first byte announces. -/
def skipPadding (first : UInt8) (bytes : Octets) : Except Malformed Octets :=
  if first.toNat / 32 % 2 = 1 then dropPadding bytes else .ok bytes

theorem trim_eq (first : UInt8) (bytes : Octets) :
    trim first bytes = skipExtension first bytes >>= skipPadding first := by
  unfold trim skipExtension skipPadding
  by_cases hextension : first.toNat / 16 % 2 = 1
  · simp only [if_pos hextension]
    rfl
  · simp only [if_neg hextension]
    rfl

theorem skipExtension_eq_ok_iff {first : UInt8} {bytes rest : Octets} :
    skipExtension first bytes = .ok rest ↔
      ∃ extension, bytes = extension ++ rest ∧ FitsExtension first extension := by
  unfold skipExtension FitsExtension
  split
  · exact dropExtension_eq_ok_iff
  · simp

theorem skipPadding_eq_ok_iff {first : UInt8} {bytes payload : Octets} :
    skipPadding first bytes = .ok payload ↔
      ∃ padding, bytes = payload ++ padding ∧ FitsPadding first bytes padding := by
  unfold skipPadding FitsPadding
  split
  · exact dropPadding_eq_ok_iff
  · simp

theorem bind_eq_ok_iff {α β : Type} {x : Except Malformed α} {f : α → Except Malformed β}
    {b : β} : x >>= f = .ok b ↔ ∃ a, x = .ok a ∧ f a = .ok b := by
  constructor
  · intro h
    cases x with
    | error e => cases h
    | ok a => exact ⟨a, rfl, h⟩
  · rintro ⟨a, rfl, h⟩
    exact h

/-- What is trimmed off is an extension in front and padding at the end. -/
theorem trim_eq_ok_iff {first : UInt8} {bytes payload : Octets} :
    trim first bytes = .ok payload ↔
      ∃ extension padding, bytes = extension ++ (payload ++ padding) ∧
        FitsExtension first extension ∧ FitsPadding first padding padding := by
  rw [trim_eq, bind_eq_ok_iff]
  constructor
  · rintro ⟨body, hbody, hpayload⟩
    obtain ⟨extension, rfl, hextension⟩ := skipExtension_eq_ok_iff.mp hbody
    obtain ⟨padding, rfl, hpadding⟩ := skipPadding_eq_ok_iff.mp hpayload
    exact ⟨extension, padding, rfl, hextension, fitsPadding_append_iff.mp hpadding⟩
  · rintro ⟨extension, padding, rfl, hextension, hpadding⟩
    exact ⟨payload ++ padding, skipExtension_eq_ok_iff.mpr ⟨extension, rfl, hextension⟩,
      skipPadding_eq_ok_iff.mpr ⟨padding, rfl, fitsPadding_append_iff.mpr hpadding⟩⟩

/-! ## Whole packets -/

/-- The parts that the bytes of a packet fall into. -/
structure Parts where
  header : Octets
  sources : Octets
  extension : Octets
  payload : Octets
  padding : Octets

namespace Parts

def bytes (s : Parts) : Octets := s.header ++ s.sources ++ s.extension ++ s.payload ++ s.padding

/-- The first byte of the header: the version in two bits, whether there is padding, whether there
is an extension, and the number of sources in four bits. -/
def first (s : Parts) : UInt8 := s.header.headD 0

/-- Whether the parts are as the header says. -/
structure Fit (s : Parts) : Prop where
  header : s.header.length = 12
  version : s.first.toNat / 64 = 2
  sources : s.sources.length = 4 * (s.first.toNat % 16)
  extension : FitsExtension s.first s.extension
  padding : FitsPadding s.first s.bytes s.padding

/-- What the parts say: all that the header and the sources hold, and the payload. -/
def packet (s : Parts) : Packet :=
  { marker := (s.header.getD 1 0).toNat / 128 = 1
    payloadType := .ofNat ((s.header.getD 1 0).toNat % 128)
    sequence := .ofNat (bigEndian ((s.header.drop 2).take 2))
    timestamp := .ofNat (bigEndian ((s.header.drop 4).take 4))
    ssrc := .ofNat (bigEndian ((s.header.drop 8).take 4))
    csrc := words s.sources
    payload := s.payload }

end Parts

section Decode

variable {b0 b1 s0 s1 t0 t1 t2 t3 r0 r1 r2 r3 : UInt8} {rest : Octets} {p : Packet}

/-- Behind the fixed header, a packet is read by taking the sources off and trimming the rest. -/
theorem decode_header_eq_ok_iff :
    decode (b0 :: b1 :: s0 :: s1 :: t0 :: t1 :: t2 :: t3 :: r0 :: r1 :: r2 :: r3 :: rest) =
        .ok p ↔
      b0.toNat / 64 = 2 ∧ ∃ csrc tail payload,
        takeWords (b0.toNat % 16) rest = some (csrc, tail) ∧ trim b0 tail = .ok payload ∧
        { marker := b1.toNat / 128 = 1
          payloadType := UInt8.ofNat (b1.toNat % 128)
          sequence := Octets.readBe16 s0 s1
          timestamp := Octets.readBe32 t0 t1 t2 t3
          ssrc := Octets.readBe32 r0 r1 r2 r3
          csrc
          payload } = p := by
  constructor
  · intro h
    obtain ⟨hversion, csrc, tail, hwords⟩ := takeWords_of_decode h
    rw [decode_of_takeWords hversion hwords] at h
    obtain ⟨payload, hpayload, hpacket⟩ := bind_eq_ok_iff.mp h
    exact ⟨hversion, csrc, tail, payload, hwords, hpayload, Except.ok.inj hpacket⟩
  · rintro ⟨hversion, csrc, tail, payload, hwords, hpayload, rfl⟩
    rw [decode_of_takeWords hversion hwords, hpayload]
    rfl

end Decode

/-- A packet is read from what falls into parts that fit, and it is what they say. -/
theorem decode_eq_ok_iff {bytes : Octets} {p : Packet} :
    decode bytes = .ok p ↔ ∃ s : Parts, s.bytes = bytes ∧ s.Fit ∧ s.packet = p := by
  constructor
  · intro h
    match bytes, h with
    | b0 :: b1 :: s0 :: s1 :: t0 :: t1 :: t2 :: t3 :: r0 :: r1 :: r2 :: r3 :: rest, h =>
      obtain ⟨hversion, csrc, tail, payload, hwords, htrim, rfl⟩ := decode_header_eq_ok_iff.mp h
      obtain ⟨sources, rfl, hsources, rfl⟩ := takeWords_eq_some_iff.mp hwords
      obtain ⟨extension, padding, rfl, hextension, hpadding⟩ := trim_eq_ok_iff.mp htrim
      refine ⟨⟨[b0, b1, s0, s1, t0, t1, t2, t3, r0, r1, r2, r3], sources, extension, payload,
        padding⟩, ?_, ⟨rfl, hversion, hsources, hextension, ?_⟩, ?_⟩
      · simp [Parts.bytes]
      · exact fitsPadding_append_iff.mpr hpadding
      · simp [Parts.packet, ofNat_bigEndian_two, ofNat_bigEndian_four]
  · rintro ⟨⟨header, sources, extension, payload, padding⟩, rfl, hfit, rfl⟩
    obtain ⟨hheader, hversion, hsources, hextension, hpadding⟩ := hfit
    match header, hheader with
    | [b0, b1, s0, s1, t0, t1, t2, t3, r0, r1, r2, r3], _ =>
      have hbytes : Parts.bytes ⟨[b0, b1, s0, s1, t0, t1, t2, t3, r0, r1, r2, r3], sources,
          extension, payload, padding⟩ = b0 :: b1 :: s0 :: s1 :: t0 :: t1 :: t2 :: t3 ::
            r0 :: r1 :: r2 :: r3 :: (sources ++ (extension ++ (payload ++ padding))) := by
        simp [Parts.bytes]
      rw [hbytes]
      have hwords : takeWords (b0.toNat % 16) (sources ++ (extension ++ (payload ++ padding))) =
          some (words sources, extension ++ (payload ++ padding)) :=
        takeWords_eq_some_iff.mpr ⟨sources, rfl, hsources, rfl⟩
      have htrim : trim b0 (extension ++ (payload ++ padding)) = .ok payload :=
        trim_eq_ok_iff.mpr
          ⟨extension, padding, rfl, hextension, fitsPadding_append_iff.mp hpadding⟩
      refine decode_header_eq_ok_iff.mpr ⟨hversion, _, _, _, hwords, htrim, ?_⟩
      simp [Parts.packet, ofNat_bigEndian_two, ofNat_bigEndian_four]

end Parley.Rtp.Packet
