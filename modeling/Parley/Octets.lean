/-!
# `Parley/Octets.lean` — bytes, and the words they spell

A message is a list of bytes. Network formats spell a word with its highest byte first, audio files
with their lowest byte first. Each reading undoes the writing (`readBe16_be16`, `readBe32_be32`,
`samplesBe_ofSamplesBe`, `samplesLe_ofSamplesLe`), writing a word spells the bytes that it was read
from (`be16_readBe16`, `be32_readBe32`), and bytes that were put in front of others can be taken off
again (`splitExactly?_append`).
-/

set_option autoImplicit false

namespace Parley

/-- A sequence of bytes. -/
abbrev Octets := List UInt8

namespace Octets

/-! ## Taking bytes off -/

/-- The first so many bytes and those after them, if there are so many. -/
def splitExactly? (n : Nat) (bytes : Octets) : Option (Octets × Octets) :=
  let front := bytes.take n
  if front.length < n then none else some (front, bytes.drop n)

theorem splitExactly?_append (front rest : Octets) :
    splitExactly? front.length (front ++ rest) = some (front, rest) := by
  simp [splitExactly?]

theorem splitExactly?_eq_none_iff {n : Nat} {bytes : Octets} :
    splitExactly? n bytes = none ↔ bytes.length < n := by
  simp only [splitExactly?, List.length_take]
  split <;> simp <;> omega

/-! ## Highest byte first -/

/-- The high byte of a 16-bit word. -/
def high (w : UInt16) : UInt8 := UInt8.ofNat (w.toNat / 0x100)

/-- The low byte of a 16-bit word. -/
def low (w : UInt16) : UInt8 := UInt8.ofNat w.toNat

def be16 (w : UInt16) : Octets := [high w, low w]

def readBe16 (a b : UInt8) : UInt16 := UInt16.ofNat (a.toNat * 0x100 + b.toNat)

theorem readBe16_be16 (w : UInt16) : readBe16 (high w) (low w) = w := by
  apply UInt16.toNat_inj.1
  have := w.toNat_lt
  simp [readBe16, high, low]
  omega

theorem be16_readBe16 (a b : UInt8) : be16 (readBe16 a b) = [a, b] := by
  have ha := a.toNat_lt
  have hb := b.toNat_lt
  have hword : (readBe16 a b).toNat = a.toNat * 0x100 + b.toNat := by
    rw [readBe16, UInt16.toNat_ofNat']
    omega
  have hhigh : high (readBe16 a b) = a := by
    apply UInt8.toNat_inj.1
    rw [high, hword, UInt8.toNat_ofNat']
    omega
  have hlow : low (readBe16 a b) = b := by
    apply UInt8.toNat_inj.1
    rw [low, hword, UInt8.toNat_ofNat']
    omega
  rw [be16, hhigh, hlow]

/-- The byte of a 32-bit word that stands above `n` lower ones. -/
def byte (n : Nat) (w : UInt32) : UInt8 := UInt8.ofNat (w.toNat / Nat.pow 0x100 n)

def be32 (w : UInt32) : Octets := [byte 3 w, byte 2 w, byte 1 w, byte 0 w]

def readBe32 (a b c d : UInt8) : UInt32 :=
  UInt32.ofNat (a.toNat * 0x1000000 + b.toNat * 0x10000 + c.toNat * 0x100 + d.toNat)

theorem readBe32_be32 (w : UInt32) :
    readBe32 (byte 3 w) (byte 2 w) (byte 1 w) (byte 0 w) = w := by
  apply UInt32.toNat_inj.1
  have := w.toNat_lt
  simp [readBe32, byte]
  omega

theorem be32_readBe32 (a b c d : UInt8) : be32 (readBe32 a b c d) = [a, b, c, d] := by
  have ha := a.toNat_lt
  have hb := b.toNat_lt
  have hc := c.toNat_lt
  have hd := d.toNat_lt
  have hword : (readBe32 a b c d).toNat =
      a.toNat * 0x1000000 + b.toNat * 0x10000 + c.toNat * 0x100 + d.toNat := by
    rw [readBe32, UInt32.toNat_ofNat']
    omega
  have hbyte : ∀ n e, (readBe32 a b c d).toNat / Nat.pow 0x100 n % 0x100 = e.toNat →
      byte n (readBe32 a b c d) = e := by
    intro n e h
    apply UInt8.toNat_inj.1
    rw [byte, UInt8.toNat_ofNat', ← h]
  have h3 := hbyte 3 a (by rw [hword]; simp; omega)
  have h2 := hbyte 2 b (by rw [hword]; simp; omega)
  have h1 := hbyte 1 c (by rw [hword]; simp; omega)
  have h0 := hbyte 0 d (by rw [hword]; simp; omega)
  rw [be32, h3, h2, h1, h0]

/-! ## Lowest byte first -/

def le16 (w : UInt16) : Octets := [low w, high w]

def readLe16 (a b : UInt8) : UInt16 := readBe16 b a

def readLe32 (a b c d : UInt8) : UInt32 := readBe32 d c b a

/-! ## Sixteen-bit samples -/

/-- The bytes of samples, each with its highest byte first. -/
def ofSamplesBe (samples : List Int16) : Octets :=
  samples.flatMap fun s => be16 s.toUInt16

/-- The bytes of samples, each with its lowest byte first. -/
def ofSamplesLe (samples : List Int16) : Octets :=
  samples.flatMap fun s => le16 s.toUInt16

/-- The samples that bytes spell, highest byte first; a byte left over is no sample. -/
def samplesBe : Octets → List Int16
  | a :: b :: rest => (readBe16 a b).toInt16 :: samplesBe rest
  | _ => []

/-- The samples that bytes spell, lowest byte first; a byte left over is no sample. -/
def samplesLe : Octets → List Int16
  | a :: b :: rest => (readLe16 a b).toInt16 :: samplesLe rest
  | _ => []

theorem samplesBe_ofSamplesBe (samples : List Int16) :
    samplesBe (ofSamplesBe samples) = samples := by
  induction samples with
  | nil => rfl
  | cons s rest ih =>
    show (readBe16 (high s.toUInt16) (low s.toUInt16)).toInt16 :: samplesBe (ofSamplesBe rest) = _
    rw [readBe16_be16, ih, UInt16.toInt16, Int16.toUInt16]

theorem length_ofSamplesBe (samples : List Int16) :
    (ofSamplesBe samples).length = samples.length * 2 := by
  induction samples with
  | nil => rfl
  | cons s rest ih =>
    show (ofSamplesBe rest).length + 2 = (rest.length + 1) * 2
    omega

theorem length_ofSamplesLe (samples : List Int16) :
    (ofSamplesLe samples).length = samples.length * 2 := by
  induction samples with
  | nil => rfl
  | cons s rest ih =>
    show (ofSamplesLe rest).length + 2 = (rest.length + 1) * 2
    omega

theorem samplesLe_ofSamplesLe (samples : List Int16) :
    samplesLe (ofSamplesLe samples) = samples := by
  induction samples with
  | nil => rfl
  | cons s rest ih =>
    show (readLe16 (low s.toUInt16) (high s.toUInt16)).toInt16 :: samplesLe (ofSamplesLe rest) = _
    rw [readLe16, readBe16_be16, ih, UInt16.toInt16, Int16.toUInt16]

theorem length_samplesLe (bytes : Octets) : (samplesLe bytes).length = bytes.length / 2 := by
  induction bytes using samplesLe.induct with
  | case1 a b rest ih =>
    rw [samplesLe, List.length_cons, ih, List.length_cons, List.length_cons]
    omega
  | case2 bytes hshort =>
    match bytes, hshort with
    | [], _ => rfl
    | [_], _ => simp [samplesLe]
    | a :: b :: rest, hshort => exact absurd rfl (hshort a b rest)

/-- Bytes that spell whole samples can be taken apart from those that follow. -/
theorem samplesLe_append {front : Octets} (h : front.length % 2 = 0) (rest : Octets) :
    samplesLe (front ++ rest) = samplesLe front ++ samplesLe rest := by
  induction front using samplesLe.induct with
  | case1 a b front ih =>
    rw [List.length_cons, List.length_cons] at h
    show (readLe16 a b).toInt16 :: samplesLe (front ++ rest) = _
    rw [ih (by omega)]
    rfl
  | case2 front hshort =>
    match front, h, hshort with
    | [], _, _ => rfl
    | [_], h, _ => exact absurd h (by simp)
    | a :: b :: front, _, hshort => exact absurd rfl (hshort a b front)

end Octets

end Parley
