import Parley.Proofs.Rtp.Parts

/-!
# `Parley/Proofs/Rtp/Positions.lean` — reading a packet by positions

Reading takes parts off the front, and so cannot reach past the end. A reader that holds all bytes
and goes by positions could; `decodeAt` is one, in which a position that is not there gives no
result at all. It gives what reading does (`decodeAt_eq`), hence it never goes to such a position.

Where the bytes in front of a part are known by their length, a position is where the rest begins:
each step of the reader is one lemma on `front ++ back`.
-/

set_option autoImplicit false

namespace Parley.Rtp.Packet

open Parley.Audio

/-! ## Bytes that are too few or of another version -/

section Header

variable {b0 b1 s0 s1 t0 t1 t2 t3 r0 r1 r2 r3 : UInt8} {rest : Octets}

theorem decode_of_version_ne (h : b0.toNat / 64 ≠ 2) :
    decode (b0 :: b1 :: s0 :: s1 :: t0 :: t1 :: t2 :: t3 :: r0 :: r1 :: r2 :: r3 :: rest) =
      .error .version := by
  unfold decode
  dsimp only
  rw [if_pos h]
  rfl

theorem decode_of_takeWords_eq_none (hversion : b0.toNat / 64 = 2)
    (hwords : takeWords (b0.toNat % 16) rest = none) :
    decode (b0 :: b1 :: s0 :: s1 :: t0 :: t1 :: t2 :: t3 :: r0 :: r1 :: r2 :: r3 :: rest) =
      .error .sources := by
  unfold decode
  dsimp only
  rw [if_neg (not_not_intro hversion), hwords]
  rfl

end Header

theorem decode_of_length_lt {bytes : Octets} (h : bytes.length < 12) :
    decode bytes = .error .shortHeader := by
  unfold decode
  split
  · simp only [List.length_cons] at h
    omega
  · rfl

theorem takeWords_eq_none_iff {n : Nat} {bytes : Octets} :
    takeWords n bytes = none ↔ bytes.length < 4 * n := by
  constructor
  · intro h
    refine Nat.not_le.mp fun hle => ?_
    have hsome := takeWords_eq_some_iff.mpr
      ⟨bytes.take (4 * n), (List.take_append_drop _ _).symm, List.length_take_of_le hle, rfl⟩
    cases h.symm.trans hsome
  · intro h
    refine Option.eq_none_iff_forall_not_mem.mpr fun ⟨csrc, tail⟩ hsome => ?_
    obtain ⟨sources, rfl, hlength, -⟩ := takeWords_eq_some_iff.mp hsome
    rw [List.length_append] at h
    omega

/-! ## Reading by positions -/

/-- What a reader that goes by positions finds: a result or what is malformed, unless it goes to a
position that is not there. -/
abbrev Reading := ExceptT Malformed Option

/-- The bytes from one position up to another. -/
def slice? (bytes : Octets) (start stop : Nat) : Option Octets :=
  if start ≤ stop ∧ stop ≤ bytes.length then some ((bytes.take stop).drop start) else none

def byte? (bytes : Octets) (i : Nat) : Option UInt8 := bytes[i]?

def half? (bytes : Octets) (i : Nat) : Option UInt16 :=
  return Octets.readBe16 (← byte? bytes i) (← byte? bytes (i + 1))

def word? (bytes : Octets) (i : Nat) : Option UInt32 :=
  return Octets.readBe32 (← byte? bytes i) (← byte? bytes (i + 1)) (← byte? bytes (i + 2))
    (← byte? bytes (i + 3))

/-- The words that bytes spell, each read from its four bytes by positions. -/
def words? (bytes : Octets) : Option (List UInt32) := (groups 4 bytes).mapM (word? · 0)

/-- Where an extension ends that begins at a position. -/
def extensionEnd (bytes : Octets) (start : Nat) : Reading Nat :=
  if bytes.length < start + 4 then throw .extensionHeader
  else do
    let length ← half? bytes (start + 2)
    let stop := start + 4 + length.toNat * 4
    if bytes.length < stop then throw .extension else return stop

/-- Where padding begins, behind a payload that begins at a position. -/
def paddingStart (bytes : Octets) (start : Nat) : Reading Nat := do
  let last ← byte? bytes (bytes.length - 1)
  if last.toNat = 0 ∨ bytes.length < start + last.toNat then throw .padding
  else return bytes.length - last.toNat

/-- Where the payload begins, if the sources end at a position. -/
def payloadStart (first : UInt8) (bytes : Octets) (offset : Nat) : Reading Nat :=
  if first.toNat / 16 % 2 = 1 then extensionEnd bytes offset else return offset

/-- Where the payload ends. -/
def payloadEnd (first : UInt8) (bytes : Octets) (start : Nat) : Reading Nat :=
  if first.toNat / 32 % 2 = 1 then paddingStart bytes start else return bytes.length

def payloadAt (first : UInt8) (bytes : Octets) (offset : Nat) : Reading Octets := do
  let start ← payloadStart first bytes offset
  let stop ← payloadEnd first bytes start
  slice? bytes start stop

/-- Where the sources end. -/
def sourcesEnd (first : UInt8) : Nat := 12 + first.toNat % 16 * 4

def sourcesAt (first : UInt8) (bytes : Octets) : Reading (List UInt32) :=
  if bytes.length < sourcesEnd first then throw .sources
  else do words? (← slice? bytes 12 (sourcesEnd first))

def decodeAt (bytes : Octets) : Reading Packet :=
  if bytes.length < 12 then throw .shortHeader
  else do
    let first ← byte? bytes 0
    if first.toNat / 64 ≠ 2 then throw .version
    else do
      let csrc ← sourcesAt first bytes
      let payload ← payloadAt first bytes (sourcesEnd first)
      let second ← byte? bytes 1
      return {
        marker := second.toNat / 128 = 1
        payloadType := UInt8.ofNat (second.toNat % 128)
        sequence := ← half? bytes 2
        timestamp := ← word? bytes 4
        ssrc := ← word? bytes 8
        csrc
        payload }

/-- A reading in which every position is there. -/
def found {α : Type} (result : Except Malformed α) : Reading α := ExceptT.mk (some result)

section Found

variable {α β : Type}

theorem lift_some (a : α) : (liftM (some a) : Reading α) = pure a := rfl

theorem found_bind {x : Except Malformed α} {f : α → Except Malformed β}
    {g : α → Reading β} (h : ∀ a, x = .ok a → g a = found (f a)) :
    found x >>= g = found (x >>= f) := by
  cases x with
  | error e => rfl
  | ok a => exact h a rfl

end Found

section Append

variable {front back : Octets} {first : UInt8}

theorem slice?_append (front middle back : Octets) :
    slice? (front ++ (middle ++ back)) front.length (front ++ middle).length = some middle := by
  rw [slice?, if_pos (by simp), ← List.append_assoc, List.take_left, List.drop_left]

theorem byte?_append (front back : Octets) (i : Nat) :
    byte? (front ++ back) (front.length + i) = byte? back i := by
  rw [byte?, List.getElem?_append_right (Nat.le_add_right _ _), Nat.add_sub_cancel_left, byte?]

/-- An extension ends where what is left without it begins. -/
theorem extensionEnd_append (front back : Octets) :
    extensionEnd (front ++ back) front.length =
      found (do
        let rest ← dropExtension back
        return (front ++ back).length - rest.length) := by
  unfold extensionEnd
  match back with
  | p :: q :: a :: b :: rest =>
    have hhalf : half? (front ++ p :: q :: a :: b :: rest) (front.length + 2) =
        some (Octets.readBe16 a b) := by
      simp only [half?, Nat.add_assoc, byte?_append]
      rfl
    have hlong : ¬ (front ++ p :: q :: a :: b :: rest).length < front.length + 4 := by
      simp
    have htotal : (front ++ p :: q :: a :: b :: rest).length = front.length + 4 + rest.length := by
      simp only [List.length_append, List.length_cons]
      omega
    rw [if_neg hlong, hhalf, lift_some, pure_bind]
    simp only [dropExtension, htotal, Nat.add_lt_add_iff_left]
    split
    · rfl
    · rename_i hle
      refine congrArg (fun stop => found (.ok stop)) ?_
      rw [List.length_drop]
      omega
  | [] | [_] | [_, _] | [_, _, _] =>
    rw [if_pos (by simp)]
    rfl

/-- Padding begins where what is left without it ends. -/
theorem paddingStart_append (hfront : front ≠ []) (back : Octets) :
    paddingStart (front ++ back) front.length =
      found (do
        let rest ← dropPadding back
        return front.length + rest.length) := by
  have hpos := List.length_pos_iff.mpr hfront
  have hbyte : byte? (front ++ back) ((front ++ back).length - 1) = (front ++ back).getLast? :=
    List.getLast?_eq_getElem?.symm
  unfold paddingStart dropPadding
  rw [hbyte, List.getLast?_append]
  cases hlast : back.getLast? with
  | none =>
    -- the last byte there is stands in front of where padding could be
    obtain rfl := List.getLast?_eq_none_iff.mp hlast
    rw [Option.none_or, List.getLast?_eq_some_getLast hfront, lift_some, pure_bind, List.append_nil,
      if_pos (by omega)]
    rfl
  | some last =>
    rw [Option.some_or, lift_some, pure_bind, List.length_append]
    simp only [Nat.add_lt_add_iff_left]
    split
    · rfl
    · refine congrArg (fun stop => found (.ok stop)) ?_
      rw [List.length_take]
      omega

theorem payloadStart_append (front back : Octets) :
    payloadStart first (front ++ back) front.length =
      found (do
        let rest ← skipExtension first back
        return (front ++ back).length - rest.length) := by
  unfold payloadStart skipExtension
  split
  · exact extensionEnd_append front back
  · refine congrArg (fun stop => found (.ok stop)) ?_
    rw [List.length_append, Nat.add_sub_cancel]

theorem payloadEnd_append (hfront : front ≠ []) (back : Octets) :
    payloadEnd first (front ++ back) front.length =
      found (do
        let rest ← skipPadding first back
        return front.length + rest.length) := by
  unfold payloadEnd skipPadding
  split
  · exact paddingStart_append hfront back
  · exact congrArg (fun stop => found (.ok stop)) List.length_append

/-- The payload is what is left of the bytes behind the sources. -/
theorem payloadAt_append (hfront : front ≠ []) (back : Octets) :
    payloadAt first (front ++ back) front.length = found (trim first back) := by
  unfold payloadAt
  rw [payloadStart_append, trim_eq]
  cases hbody : skipExtension first back with
  | error e => rfl
  | ok body =>
    obtain ⟨extension, rfl, -⟩ := skipExtension_eq_ok_iff.mp hbody
    have hstart : (front ++ (extension ++ body)).length - body.length =
        (front ++ extension).length := by
      simp only [List.length_append]
      omega
    show (do
      let stop ← payloadEnd first (front ++ (extension ++ body)) _
      slice? (front ++ (extension ++ body)) _ stop) = found (skipPadding first body)
    rw [hstart, ← List.append_assoc, payloadEnd_append (by simp [hfront])]
    cases hpayload : skipPadding first body with
    | error e => rfl
    | ok payload =>
      obtain ⟨padding, rfl, -⟩ := skipPadding_eq_ok_iff.mp hpayload
      show (liftM (slice? _ _ _) : Reading Octets) = found (.ok payload)
      rw [← List.length_append, slice?_append]
      rfl

end Append

theorem words?_eq (sources : Octets) : words? sources = some (words sources) := by
  refine mapM_eq_some fun group hgroup => ?_
  match group, length_of_mem_groups hgroup with
  | [a, b, c, d], _ =>
    rw [ofNat_bigEndian_four]
    rfl

theorem sourcesAt_append {first : UInt8} {front : Octets} (hfront : front.length = 12)
    (rest : Octets) :
    sourcesAt first (front ++ rest) =
      found (match takeWords (first.toNat % 16) rest with
        | some taken => .ok taken.1
        | none => .error .sources) := by
  unfold sourcesAt sourcesEnd
  cases hwords : takeWords (first.toNat % 16) rest with
  | none =>
    have hlt := takeWords_eq_none_iff.mp hwords
    rw [if_pos (by rw [List.length_append]; omega)]
    rfl
  | some taken =>
    obtain ⟨sources, rfl, hlength, hcsrc⟩ := takeWords_eq_some_iff.mp hwords
    have hend : 12 + first.toNat % 16 * 4 = (front ++ sources).length := by
      rw [List.length_append]
      omega
    have hslice : slice? (front ++ (sources ++ taken.2)) 12 (front ++ sources).length =
        some sources := by
      rw [← hfront, slice?_append]
    rw [hend, if_neg (by simp), hslice, lift_some, pure_bind, words?_eq, hcsrc]
    rfl

/-- A reader that goes by positions never goes to one that is not there, and finds what reading
gives. -/
theorem decodeAt_eq (bytes : Octets) : decodeAt bytes = found (decode bytes) := by
  unfold decodeAt
  split
  · rename_i hshort
    rw [decode_of_length_lt hshort]
    rfl
  · rename_i hlong
    have htwelve : (bytes.take 12).length = 12 := List.length_take_of_le (by omega)
    obtain ⟨front, rest, rfl, hfront⟩ :
        ∃ front rest, bytes = front ++ rest ∧ front.length = 12 :=
      ⟨_, _, (List.take_append_drop 12 bytes).symm, htwelve⟩
    match front, hfront with
    | [b0, b1, s0, s1, t0, t1, t2, t3, r0, r1, r2, r3], hfront =>
      have hfirst : byte? ([b0, b1, s0, s1, t0, t1, t2, t3, r0, r1, r2, r3] ++ rest) 0 =
        some b0 := rfl
      rw [hfirst, lift_some, pure_bind, sourcesAt_append hfront]
      by_cases hversion : b0.toNat / 64 = 2
      case neg =>
        rw [if_pos hversion]
        exact congrArg found (decode_of_version_ne hversion).symm
      case pos =>
        rw [if_neg (not_not_intro hversion)]
        cases hwords : takeWords (b0.toNat % 16) rest with
        | none => exact congrArg found (decode_of_takeWords_eq_none hversion hwords).symm
        | some taken =>
          obtain ⟨sources, rfl, hlength, -⟩ := takeWords_eq_some_iff.mp hwords
          have hend : sourcesEnd b0 =
              ([b0, b1, s0, s1, t0, t1, t2, t3, r0, r1, r2, r3] ++ sources).length := by
            rw [List.length_append, hfront, hlength, sourcesEnd, Nat.mul_comm]
          rw [hend, ← List.append_assoc, payloadAt_append (by simp)]
          refine Eq.trans ?_ (congrArg found (decode_of_takeWords hversion hwords).symm)
          exact found_bind fun payload _ => rfl

/-! ## All bytes -/

/-- **Reading tells packets from all other bytes.** Bytes are read as a packet exactly if they fall
into a header of twelve bytes and version two, as many sources as it says, an extension and padding
if it announces them, and a payload between the two; and then the packet is what these parts say.
All other bytes are malformed. Reading by positions finds the same and never goes to a position that
is not there. -/
theorem decode_iff_parts (bytes : Octets) :
    (∀ p, decode bytes = .ok p ↔ ∃ s : Parts, s.bytes = bytes ∧ s.Fit ∧ s.packet = p) ∧
    ((∃ e, decode bytes = .error e) ↔ ¬ ∃ s : Parts, s.bytes = bytes ∧ s.Fit) ∧
    (decodeAt bytes).run = some (decode bytes) := by
  refine ⟨fun p => decode_eq_ok_iff, ?_, decodeAt_eq bytes⟩
  cases hread : decode bytes with
  | ok p =>
    obtain ⟨s, hbytes, hfit, -⟩ := decode_eq_ok_iff.mp hread
    exact iff_of_false (fun ⟨_, h⟩ => nomatch h) fun h => h ⟨s, hbytes, hfit⟩
  | error e =>
    refine iff_of_true ⟨e, rfl⟩ fun ⟨s, hbytes, hfit⟩ => ?_
    cases hread.symm.trans (decode_eq_ok_iff.mpr ⟨s, hbytes, hfit, rfl⟩)

end Parley.Rtp.Packet
