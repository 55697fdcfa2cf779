import Parley.Audio.Codec
import Parley.Storage.AudioFile

/-!
# `Parley/Proofs/Storage/Reading.lean` — a file read in chunks

A file of bare samples is read a chunk at a time, and each reading may bring only a part of what is
asked for, or nothing. How the readings go cannot be seen in the chunks: filling a room takes the
first bytes off the file (`ByteStream.fill_eq`), and so the chunks are the samples of the whole file
in pieces of one size, of which the last may be shorter (`AudioFile.readRounds_bare`).
-/

set_option autoImplicit false

namespace Parley

/-! ## Filling a room -/

namespace ByteStream

/-- A piece with room for `size` bytes, and then what there is room left for. -/
theorem take_split (data : Octets) {size room : Nat} (h : size ≤ room) :
    data.take size ++ (data.drop size).take (room - (data.take size).length) = data.take room ∧
      (data.drop size).drop (room - (data.take size).length) = data.drop room := by
  by_cases hsize : size ≤ data.length
  · have hlength : (data.take size).length = size := by
      rw [List.length_take, Nat.min_eq_left hsize]
    have hroom : size + (room - size) = room := by omega
    rw [hlength, ← List.take_add, List.drop_drop, hroom]
    exact ⟨rfl, rfl⟩
  · have hall : data.length ≤ size := by omega
    have hroom : data.length ≤ room := by omega
    rw [List.drop_of_length_le hall, List.take_of_length_le hall, List.take_of_length_le hroom,
      List.drop_of_length_le hroom, List.take_nil, List.drop_nil, List.append_nil]
    exact ⟨rfl, rfl⟩

/-- A reading that brings a piece leaves the rest to the readings after it. -/
theorem fillRounds_of_piece {rounds : Nat} {s : ByteStream} {room size : Nat}
    {grants left : List (Option Nat)} (hpos : 0 < size) (hsize : size ≤ room)
    (hread : s.read room = (some (s.data.take size), { data := s.data.drop size, grants }))
    (hrest : fillRounds rounds { data := s.data.drop size, grants }
        (room - (s.data.take size).length) =
      ((s.data.drop size).take (room - (s.data.take size).length),
        { data := (s.data.drop size).drop (room - (s.data.take size).length), grants := left })) :
    ∃ left, fillRounds (rounds + 1) s room =
      (s.data.take room, { data := s.data.drop room, grants := left }) := by
  have hroom : room ≠ 0 := by omega
  cases hpiece : s.data.take size with
  | nil =>
    -- nothing is brought only at the end of the file
    have hempty : s.data = [] := by
      rcases List.take_eq_nil_iff.mp hpiece with hzero | hnil
      · exact absurd hzero (by omega)
      · exact hnil
    refine ⟨grants, ?_⟩
    simp [fillRounds, hroom, hread, hempty]
  | cons b piece =>
    obtain ⟨htake, hdrop⟩ := take_split s.data hsize
    refine ⟨left, ?_⟩
    rw [hpiece] at hrest htake hdrop
    rw [fillRounds, if_neg hroom, hread, hpiece]
    dsimp only
    rw [hrest, htake, hdrop]

/-- The rounds are enough if each reading that something is said about has one, and one more brings
the rest. -/
theorem fillRounds_eq (rounds : Nat) (data : Octets) (grants : List (Option Nat)) (room : Nat)
    (h : grants.length < rounds ∨ grants = [] ∧ (room = 0 ∨ data = [])) :
    ∃ left, fillRounds rounds { data, grants } room =
      (data.take room, { data := data.drop room, grants := left }) := by
  induction rounds generalizing grants data room with
  | zero =>
    refine ⟨grants, ?_⟩
    rcases h.resolve_left (Nat.not_lt_zero _) with ⟨-, rfl | rfl⟩
    · rfl
    · rw [List.take_nil, List.drop_nil]
      rfl
  | succ rounds ih =>
    by_cases hroom : room = 0
    · exact ⟨grants, by simp [fillRounds, hroom]⟩
    · cases grants with
      | nil =>
        obtain ⟨left, hrest⟩ := ih (data.drop room) [] (room - (data.take room).length) (by
          refine .inr ⟨rfl, ?_⟩
          rw [List.length_take, List.drop_eq_nil_iff]
          omega)
        exact fillRounds_of_piece (Nat.pos_of_ne_zero hroom) (Nat.le_refl room) rfl hrest
      | cons grant grants =>
        have hrounds : grants.length < rounds := by
          rcases h with hlt | ⟨hnil, -⟩
          · exact Nat.lt_of_succ_lt_succ hlt
          · cases hnil
        cases grant with
        | none =>
          obtain ⟨left, hrest⟩ := ih data grants room (.inl hrounds)
          refine ⟨left, ?_⟩
          simp only [fillRounds, if_neg hroom, read]
          exact hrest
        | some extra =>
          obtain ⟨left, hrest⟩ := ih (data.drop (min room (extra + 1))) grants _ (.inl hrounds)
          exact fillRounds_of_piece (by omega) (Nat.min_le_left room (extra + 1)) rfl hrest

/-- However the readings of a file go, filling a room takes the first bytes off it. -/
theorem fill_eq (s : ByteStream) (room : Nat) :
    ∃ left, s.fill room =
      (s.data.take room, { data := s.data.drop room, grants := left }) :=
  fillRounds_eq (s.grants.length + 2) s.data s.grants room (.inl (by omega))

end ByteStream

/-! ## Samples in pieces -/

/-- Samples cut into pieces of one size, of which the last may be shorter. -/
inductive InPieces (size : Nat) : List Int16 → List (List Int16) → Prop where
  | none : InPieces size [] []
  | last {piece : List Int16} (h : piece.length ≤ size) : InPieces size piece [piece]
  | more {piece samples : List Int16} {pieces : List (List Int16)} (h : piece.length = size)
      (rest : InPieces size samples pieces) : InPieces size (piece ++ samples) (piece :: pieces)

/-- There is at most one piece that is not full. -/
theorem InPieces.length_le {size : Nat} {samples : List Int16} {pieces : List (List Int16)}
    (h : InPieces size samples pieces) : pieces.length * size ≤ samples.length + size := by
  induction h with
  | none => simp
  | last h => simp
  | more h rest ih =>
    rw [List.length_cons, List.length_append, Nat.succ_mul, h]
    omega

/-- Before the last piece all are full, and it is not longer than they are. -/
theorem InPieces.around {size : Nat} {samples piece : List Int16}
    {done rest : List (List Int16)} (h : InPieces size samples (done ++ piece :: rest)) :
    (∀ full ∈ done, full.length = size) ∧ piece.length ≤ size := by
  induction done generalizing samples with
  | nil =>
    refine ⟨fun full hmem => absurd hmem List.not_mem_nil, ?_⟩
    cases h with
    | last h => exact h
    | more h _ => exact Nat.le_of_eq h
  | cons first done ih =>
    generalize hpieces : first :: done ++ piece :: rest = pieces at h
    cases h with
    | none => cases hpieces
    | last _ => cases done <;> cases hpieces
    | more hfirst hrest =>
      cases hpieces
      obtain ⟨hfull, hpiece⟩ := ih hrest
      refine ⟨fun full hmem => ?_, hpiece⟩
      rcases List.mem_cons.mp hmem with rfl | hdone
      · exact hfirst
      · exact hfull full hdone

namespace AudioFile

/-- The file of this name that holds bare samples. -/
def bare (name : String) (stream : ByteStream) : AudioFile :=
  { name, format := .raw, data := .raw stream }

theorem openAs_of_not_isWave {name : String} (h : isWave name = false) (stream : ByteStream) :
    openAs name (some stream) = .ok (bare name stream) := by
  simp only [openAs, h]
  rfl

variable {name : String} {frames : Nat}

theorem readChunk_bare (name : String) (hfit : 4 * frames < 0x10000000000000000)
    (stream : ByteStream) :
    ∃ left, (bare name stream).readChunk frames =
      (.ok (Octets.samplesLe (stream.data.take (4 * frames))),
        bare name { data := stream.data.drop (4 * frames), grants := left }) := by
  obtain ⟨left, hfill⟩ := stream.fill_eq (4 * frames)
  have hasked : asked (asked (frames * 2) * 2) = 4 * frames := by
    rw [asked_eq_of_lt (by omega : frames * 2 < 0x10000000000000000),
      asked_eq_of_lt (by omega : frames * 2 * 2 < 0x10000000000000000)]
    omega
  refine ⟨left, ?_⟩
  show ((Except.ok (Octets.samplesLe (stream.fill (asked (asked (frames * 2) * 2))).1) :
      Except SourceError (List Int16)),
    bare name (stream.fill (asked (asked (frames * 2) * 2))).2) = _
  rw [hasked, hfill]

/-- Where fewer bytes are left than a sample has, the reading stops. -/
theorem readRounds_of_short (hfit : 4 * frames < 0x10000000000000000) {stream : ByteStream}
    (hshort : Octets.samplesLe (stream.data.take (4 * frames)) = []) (rounds : Nat) :
    readRounds rounds (bare name stream) frames = ([], none) := by
  cases rounds with
  | zero => rfl
  | succ rounds =>
    obtain ⟨left, hchunk⟩ := readChunk_bare name hfit stream
    rw [readRounds, hchunk, hshort]

/-- A file of bare samples is read in pieces of one size, and nothing goes wrong. -/
theorem readRounds_bare (hpos : 0 < frames) (hfit : 4 * frames < 0x10000000000000000)
    {rounds : Nat} {stream : ByteStream} (hrounds : stream.data.length < rounds) :
    ∃ pieces, readRounds rounds (bare name stream) frames = (pieces, none) ∧
      InPieces (2 * frames) (Octets.samplesLe stream.data) pieces := by
  induction rounds generalizing stream with
  | zero => cases hrounds
  | succ rounds ih =>
    obtain ⟨left, hchunk⟩ := readChunk_bare name hfit stream
    by_cases hfull : 4 * frames ≤ stream.data.length
    · have hless : (stream.data.drop (4 * frames)).length < rounds := by
        rw [List.length_drop]
        omega
      obtain ⟨pieces, hrest, hpieces⟩ :=
        @ih { data := stream.data.drop (4 * frames), grants := left } hless
      have hlength : (Octets.samplesLe (stream.data.take (4 * frames))).length = 2 * frames := by
        rw [Octets.length_samplesLe, List.length_take, Nat.min_eq_left hfull]
        omega
      have hwhole : Octets.samplesLe stream.data =
          Octets.samplesLe (stream.data.take (4 * frames)) ++
            Octets.samplesLe (stream.data.drop (4 * frames)) := by
        rw [← Octets.samplesLe_append (by
          rw [List.length_take, Nat.min_eq_left hfull]
          omega), List.take_append_drop]
      refine ⟨Octets.samplesLe (stream.data.take (4 * frames)) :: pieces, ?_, ?_⟩
      · cases hsamples : Octets.samplesLe (stream.data.take (4 * frames)) with
        | nil =>
          rw [hsamples, List.length_nil] at hlength
          omega
        | cons s samples =>
          rw [readRounds, hchunk, hsamples]
          dsimp only
          rw [hrest]
      · rw [hwhole]
        exact .more hlength hpieces
    · -- this chunk takes all that is left
      have hall : stream.data.take (4 * frames) = stream.data :=
        List.take_of_length_le (by omega)
      have hnone : stream.data.drop (4 * frames) = [] := List.drop_of_length_le (by omega)
      rw [hall, hnone] at hchunk
      cases hsamples : Octets.samplesLe stream.data with
      | nil => exact ⟨[], readRounds_of_short hfit (by rw [hall, hsamples]) (rounds + 1), .none⟩
      | cons s samples =>
        have hlength := Octets.length_samplesLe stream.data
        refine ⟨[s :: samples], ?_, .last (by rw [← hsamples]; omega)⟩
        rw [readRounds, hchunk, hsamples]
        dsimp only
        rw [readRounds_of_short hfit (by rw [List.take_nil]; rfl) rounds]

/-- The chunks of twenty milliseconds of a file of bare samples. -/
theorem chunks_bare (name : String) (stream : ByteStream) :
    ∃ pieces, (bare name stream).chunks (.ofMillis Codec.frameMillis) = (pieces, none) ∧
      InPieces 1920 (Octets.samplesLe stream.data) pieces := by
  have hframes : (bare name stream).framesPer (.ofMillis Codec.frameMillis) = 960 := by
    show max (asked (48000 * (Span.ofMillis Codec.frameMillis).millis / 1000)) 1 = 960
    decide
  unfold chunks
  rw [hframes]
  exact readRounds_bare (by decide) (by decide) (Nat.lt_succ_self _)

end AudioFile

end Parley
