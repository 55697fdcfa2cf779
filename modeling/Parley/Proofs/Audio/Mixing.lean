import Parley.Audio.Downmix
import Parley.Proofs.Storage.Reading

/-!
# `Parley/Proofs/Audio/Mixing.lean` — two channels of a file into one

Groups are taken off the front of a list, so a front of whole groups is grouped on its own
(`groups_append`), and pieces of whole pairs can be mixed one by one (`inPieces_downmix`). Mixed
down, the bytes of a file are one sample for each four bytes that are complete
(`downmix_samplesLe`): what is left over at the end, be it a part of a pair or of a sample, leaves
no trace.
-/

set_option autoImplicit false

namespace Parley.Audio

/-! ## Groups of a list in two parts -/

section Groups

variable {α : Type} {n : Nat} {xs : List α}

theorem groups_of_le (hpos : 0 < n) (h : n ≤ xs.length) :
    groups n xs = xs.take n :: groups n (xs.drop n) := by
  rw [groups, dif_pos ⟨hpos, by rw [List.length_take, Nat.min_eq_left h]⟩]

theorem groups_of_lt (h : xs.length < n) : groups n xs = [] := by
  rw [groups, dif_neg]
  rintro ⟨-, hfull⟩
  rw [List.length_take, Nat.min_eq_right (Nat.le_of_lt h)] at hfull
  exact absurd hfull (Nat.ne_of_lt h)

/-- A front of whole groups is grouped on its own. -/
theorem groups_append (hpos : 0 < n) {front : List α} (h : n ∣ front.length) (rest : List α) :
    groups n (front ++ rest) = groups n front ++ groups n rest := by
  obtain ⟨count, hcount⟩ := h
  induction count generalizing front with
  | zero =>
    have hnone : groups n ([] : List α) = [] := groups_of_lt hpos
    rw [List.eq_nil_of_length_eq_zero hcount, hnone]
    rfl
  | succ count ih =>
    have hle : n ≤ front.length := by
      rw [hcount]
      exact Nat.le_mul_of_pos_right n (Nat.succ_pos count)
    have hdrop : (front.drop n).length = n * count := by
      rw [List.length_drop, hcount, Nat.mul_succ, Nat.add_sub_cancel]
    have hmore : n ≤ (front ++ rest).length := by
      rw [List.length_append]
      exact Nat.le_add_right_of_le hle
    rw [groups_of_le hpos hmore, groups_of_le hpos hle, List.take_append_of_le_length hle,
      List.drop_append_of_le_length hle, ih hdrop]
    rfl

theorem length_groups (hpos : 0 < n) (xs : List α) : (groups n xs).length = xs.length / n := by
  induction xs using groups.induct n with
  | case1 xs hfull ih =>
    have hle : n ≤ xs.length := by
      rw [← hfull.2]
      exact List.length_take_le' n xs
    rw [groups_of_le hpos hle, List.length_cons, ih, List.length_drop,
      ← Nat.add_div_right _ hpos, Nat.sub_add_cancel hle]
  | case2 xs hshort =>
    have hlt : xs.length < n := by
      refine Nat.not_le.mp fun hle => hshort ⟨hpos, ?_⟩
      rw [List.length_take, Nat.min_eq_left hle]
    rw [groups_of_lt hlt, Nat.div_eq_of_lt hlt]
    rfl

end Groups

/-! ## Two channels -/

theorem length_downmix_two (samples : List Int16) :
    (downmix 2 samples).length = samples.length / 2 :=
  (List.length_map _).trans (length_groups Nat.two_pos samples)

theorem downmix_two_append {front : List Int16} (h : 2 ∣ front.length) (rest : List Int16) :
    downmix 2 (front ++ rest) = downmix 2 front ++ downmix 2 rest := by
  show (groups 2 (front ++ rest)).map average = _
  rw [groups_append Nat.two_pos h, List.map_append]
  rfl

/-- Pieces of whole pairs can be mixed one by one. -/
theorem inPieces_downmix {size : Nat} {samples : List Int16} {pieces : List (List Int16)}
    (h : InPieces (2 * size) samples pieces) :
    InPieces size (downmix 2 samples) (pieces.map (downmix 2)) := by
  induction h with
  | none =>
    have hnone : downmix 2 [] = [] := List.eq_nil_of_length_eq_zero (length_downmix_two [])
    rw [hnone]
    exact .none
  | last h =>
    refine .last ?_
    rw [length_downmix_two]
    omega
  | more h rest ih =>
    rw [downmix_two_append (by rw [h]; exact Nat.dvd_mul_right 2 size)]
    refine .more ?_ ih
    rw [length_downmix_two, h, Nat.mul_div_cancel_left size Nat.two_pos]

/-- The average, rounded toward zero, of the two samples that stand at the `j`-th four bytes, each
with its lowest byte first. -/
def pairMean (data : Octets) (j : Nat) : Int16 :=
  let left := (Octets.readLe16 (data.getD (4 * j) 0) (data.getD (4 * j + 1) 0)).toInt16
  let right := (Octets.readLe16 (data.getD (4 * j + 2) 0) (data.getD (4 * j + 3) 0)).toInt16
  Int16.ofInt ((left.toInt + right.toInt).tdiv 2)

/-- One sample for each complete pair. -/
def pairMeans (data : Octets) : List Int16 := (List.range (data.length / 4)).map (pairMean data)

theorem pairMeans_cons (a b c d : UInt8) (rest : Octets) :
    pairMeans (a :: b :: c :: d :: rest) =
      average [(Octets.readLe16 a b).toInt16, (Octets.readLe16 c d).toInt16] :: pairMeans rest := by
  have hcount : (a :: b :: c :: d :: rest).length / 4 = rest.length / 4 + 1 := by
    simp only [List.length_cons]
    omega
  rw [pairMeans, hcount, List.range_succ_eq_map, List.map_cons, List.map_map]
  congr 1
  simp [pairMean, average]

theorem downmix_samplesLe_of_short {data : Octets} (h : data.length < 4) :
    downmix 2 (Octets.samplesLe data) = pairMeans data := by
  have hnone : data.length / 4 = 0 := Nat.div_eq_of_lt h
  have hempty : (downmix 2 (Octets.samplesLe data)).length = 0 := by
    rw [length_downmix_two, Octets.length_samplesLe]
    omega
  rw [List.eq_nil_of_length_eq_zero hempty, pairMeans, hnone]
  rfl

theorem downmix_samplesLe (data : Octets) : downmix 2 (Octets.samplesLe data) = pairMeans data := by
  match data with
  | a :: b :: c :: d :: rest =>
    rw [pairMeans_cons, ← downmix_samplesLe rest]
    show (groups 2 ((Octets.readLe16 a b).toInt16 :: (Octets.readLe16 c d).toInt16 ::
      Octets.samplesLe rest)).map average = _
    rw [groups_of_le Nat.two_pos (Nat.le_add_left 2 _)]
    rfl
  | [] | [_] | [_, _] | [_, _, _] => exact downmix_samplesLe_of_short (by simp)

end Parley.Audio
