import Mathlib.Algebra.Order.BigOperators.Group.List
import Mathlib.Algebra.Order.Ring.Int
import Mathlib.Data.Finset.Max
import Parley.Proofs.Audio.Mixing

/-!
# `Parley/Proofs/Audio/Averages.lean` — many channels into one, in 32-bit words

Whatever the number of channels, a mix is made of groups: one channel, or none declared, makes groups
of one sample, each of which is its own average (`downmix_eq`). A group has at most 65535 samples, so
that its sum stays within 32 bits however far it has come, with little to spare at either end; and
the average of a group lies between its smallest and its greatest sample, so that it is a sample again
(`average_spec`). That is why nothing is lost when the sum is kept in a 32-bit word and the quotient
cut down to 16 bits (`downmix_averages`).
-/

set_option autoImplicit false

namespace Parley.Audio

/-! ## Sums -/

/-- The sum of some samples. -/
def sumOf (samples : List Int16) : Int := (samples.map Int16.toInt).sum

/-- The sum as a 32-bit word keeps it, which wraps around when it is too large for one. -/
def wordSum (samples : List Int16) : Int32 := samples.foldl (fun sum s => sum + s.toInt32) 0

section Sums

variable {samples : List Int16} {low high : Int}

theorem sumOf_mem (h : ∀ s ∈ samples, low ≤ s.toInt ∧ s.toInt ≤ high) :
    samples.length * low ≤ sumOf samples ∧ sumOf samples ≤ samples.length * high := by
  have hall : ∀ q ∈ samples.map Int16.toInt, low ≤ q ∧ q ≤ high := by
    simpa using h
  have hlow := List.card_nsmul_le_sum _ low fun q hq => (hall q hq).1
  have hhigh := List.sum_le_card_nsmul _ high fun q hq => (hall q hq).2
  rw [List.length_map, nsmul_eq_mul] at hlow hhigh
  exact ⟨hlow, hhigh⟩

/-- The bound is tight: as many samples of the least value come within one of them of the end of
what 32 bits hold. -/
theorem sumOf_mem_word (h : samples.length < 65536) :
    -2 ^ 31 ≤ sumOf samples ∧ sumOf samples < 2 ^ 31 := by
  have hsamples : ∀ s ∈ samples, -32768 ≤ s.toInt ∧ s.toInt ≤ 32767 := fun s _ =>
    ⟨s.le_toInt, s.toInt_le⟩
  obtain ⟨hlow, hhigh⟩ := sumOf_mem hsamples
  omega

theorem wordSum_concat (samples : List Int16) (s : Int16) :
    wordSum (samples ++ [s]) = wordSum samples + s.toInt32 :=
  List.foldl_concat ..

theorem toInt_wordSum (h : samples.length < 65536) : (wordSum samples).toInt = sumOf samples := by
  induction samples using List.reverseRecOn with
  | nil => rfl
  | append_singleton samples s ih =>
    have hmore := sumOf_mem_word h
    rw [List.length_append] at h
    have hsum : sumOf (samples ++ [s]) = sumOf samples + s.toInt := by simp [sumOf]
    rw [wordSum_concat, Int32.toInt_add, ih (by omega), Int16.toInt_toInt32, ← hsum]
    exact Int.bmod_eq_of_le_mul_two (by omega) (by omega)

end Sums

/-! ## Averages -/

/-- A quotient that is rounded toward zero stays between the bounds of an average. -/
theorem tdiv_mem {low high sum count : Int} (hpos : 0 < count) (hlow : count * low ≤ sum)
    (hhigh : sum ≤ count * high) : low ≤ sum.tdiv count ∧ sum.tdiv count ≤ high := by
  have hne : count ≠ 0 := ne_of_gt hpos
  have hl := Int.tdiv_le_tdiv hpos hlow
  have hh := Int.tdiv_le_tdiv hpos hhigh
  rw [Int.mul_tdiv_cancel_left _ hne] at hl hh
  exact ⟨hl, hh⟩

/-- A group has a smallest and a greatest sample. -/
theorem exists_extremes {group : List Int16} (h : group ≠ []) :
    ∃ low ∈ group, ∃ high ∈ group, ∀ s ∈ group, low ≤ s ∧ s ≤ high := by
  have hsome : group.toFinset.Nonempty := ⟨group.head h, List.mem_toFinset.mpr (List.head_mem h)⟩
  obtain ⟨low, hlow, hleast⟩ := group.toFinset.exists_min_image Int16.toInt hsome
  obtain ⟨high, hhigh, hgreatest⟩ := group.toFinset.exists_max_image Int16.toInt hsome
  refine ⟨low, List.mem_toFinset.mp hlow, high, List.mem_toFinset.mp hhigh, fun s hs => ?_⟩
  rw [Int16.le_iff_toInt_le, Int16.le_iff_toInt_le]
  exact ⟨hleast s (List.mem_toFinset.mpr hs), hgreatest s (List.mem_toFinset.mpr hs)⟩

/-- What the average of a group is: between its extremes, exact but for the rounding, and what words
of 32 bits make of it. -/
structure IsAverage (group : List Int16) (a : Int16) : Prop where
  between : ∃ low ∈ group, ∃ high ∈ group, (∀ s ∈ group, low ≤ s ∧ s ≤ high) ∧ low ≤ a ∧ a ≤ high
  exact_eq : a.toInt = (sumOf group).tdiv group.length
  word_eq : a = (wordSum group / .ofNat group.length).toInt16

theorem average_spec {group : List Int16} (hsome : group ≠ []) (hfew : group.length < 65536) :
    IsAverage group (average group) := by
  have hpos : (0 : Int) < group.length := by
    exact_mod_cast List.length_pos_iff.mpr hsome
  obtain ⟨low, hlow, high, hhigh, hall⟩ := exists_extremes hsome
  have hsum := sumOf_mem fun s hs =>
    ⟨Int16.le_iff_toInt_le.mp (hall s hs).1, Int16.le_iff_toInt_le.mp (hall s hs).2⟩
  obtain ⟨hleast, hgreatest⟩ := tdiv_mem hpos hsum.1 hsum.2
  -- the extremes are samples, and so is what lies between them
  have hfits : -2 ^ 15 ≤ (sumOf group).tdiv group.length ∧
      (sumOf group).tdiv group.length < 2 ^ 15 :=
    ⟨low.le_toInt.trans hleast, hgreatest.trans_lt high.toInt_lt⟩
  have hexact : (average group).toInt = (sumOf group).tdiv group.length :=
    Int16.toInt_ofInt_of_le hfits.1 hfits.2
  refine ⟨⟨low, hlow, high, hhigh, hall, ?_, ?_⟩, hexact, ?_⟩
  · rwa [Int16.le_iff_toInt_le, hexact]
  · rwa [Int16.le_iff_toInt_le, hexact]
  · have hcount : (Int32.ofNat group.length).toInt = group.length :=
      Int32.toInt_ofNat_of_lt (by omega)
    have hquotient : (wordSum group / .ofNat group.length).toInt =
        (sumOf group).tdiv group.length := by
      rw [Int32.toInt_div, toInt_wordSum hfew, hcount]
      exact Int.bmod_eq_of_le_mul_two (by omega) (by omega)
    rw [← Int16.toInt_inj, hexact, Int32.toInt_toInt16, hquotient]
    exact (Int.bmod_eq_of_le_mul_two (by omega) (by omega)).symm

/-! ## Channels -/

/-- The number of samples that become one. -/
def width (channels : UInt16) : Nat := if channels ≤ 1 then 1 else channels.toNat

theorem width_pos (channels : UInt16) : 0 < width channels := by
  unfold width
  split
  · exact Nat.one_pos
  · rename_i h
    have hmany : 1 < channels := UInt16.not_le.mp h
    exact Nat.zero_lt_of_lt (UInt16.lt_iff_toNat_lt.mp hmany)

theorem width_lt (channels : UInt16) : width channels < 65536 := by
  unfold width
  split
  · decide
  · exact channels.toNat_lt

theorem width_dvd_of_dvd {channels : UInt16} {count : Nat} (h : channels.toNat ∣ count) :
    width channels ∣ count := by
  unfold width
  split
  · exact Nat.one_dvd count
  · exact h

/-- The samples of all channels that come `k`-th. -/
def interleaved (channels : UInt16) (samples : List Int16) (k : Nat) : List Int16 :=
  (samples.drop (k * width channels)).take (width channels)

theorem map_average_groups_one (samples : List Int16) :
    (groups 1 samples).map average = samples := by
  induction samples with
  | nil => rw [groups_of_lt Nat.one_pos, List.map_nil]
  | cons s rest ih =>
    have hself : average [s] = s := by simp [average]
    rw [groups_of_le Nat.one_pos (by simp), List.map_cons]
    exact congrArg₂ List.cons hself ih

theorem downmix_eq (channels : UInt16) (samples : List Int16) :
    downmix channels samples = (groups (width channels) samples).map average := by
  unfold downmix width
  split
  · exact (map_average_groups_one samples).symm
  · rfl

theorem le_length_of_lt {α : Type} {n k : Nat} (hpos : 0 < n) {xs : List α}
    (h : k < (groups n xs).length) : n ≤ xs.length := by
  rw [length_groups hpos] at h
  exact Nat.le_of_not_lt fun hlt => by simp [Nat.div_eq_of_lt hlt] at h

theorem getElem_groups {α : Type} {n k : Nat} (hpos : 0 < n) {xs : List α}
    (h : k < (groups n xs).length) : (groups n xs)[k] = (xs.drop (k * n)).take n := by
  have hle := le_length_of_lt hpos h
  induction k generalizing xs with
  | zero => simp [groups_of_le hpos hle]
  | succ k ih =>
    simp only [groups_of_le hpos hle, List.getElem_cons_succ, List.length_cons] at h ⊢
    have hrest := Nat.lt_of_succ_lt_succ h
    rw [ih hrest (le_length_of_lt hpos hrest), List.drop_drop, Nat.succ_mul, Nat.add_comm n]

theorem length_downmix (channels : UInt16) (samples : List Int16) :
    (downmix channels samples).length = samples.length / width channels := by
  rw [downmix_eq, List.length_map, length_groups (width_pos channels)]

theorem downmix_append {channels : UInt16} {front : List Int16}
    (h : channels.toNat ∣ front.length) (rest : List Int16) :
    downmix channels (front ++ rest) = downmix channels front ++ downmix channels rest := by
  rw [downmix_eq, groups_append (width_pos channels) (width_dvd_of_dvd h), List.map_append,
    ← downmix_eq, ← downmix_eq]

/-- **A mix is made of averages, and 32 bits are enough for it.** Whatever the number of channels, a
mix has one sample for each complete group of samples, one of each channel, and with one channel or
none declared it is the samples as they are. The `k`-th sample lies between the smallest and the
greatest one of the `k`-th group, and is their sum divided by their number, exact but for rounding
toward zero. To calculate it in 32-bit words and cut the quotient down to 16 bits gives the same: the
sum never leaves what 32 bits hold, neither in the end nor on the way. And a mix can be made in
pieces, if groups are not torn apart. -/
theorem downmix_averages (channels : UInt16) (samples : List Int16) :
    (2 ≤ channels → (downmix channels samples).length = samples.length / channels.toNat) ∧
    (channels ≤ 1 → downmix channels samples = samples) ∧
    (∀ k, (hk : k < (downmix channels samples).length) →
      let mixed := (downmix channels samples)[k]
      let group := interleaved channels samples k
      (∃ low ∈ group, ∃ high ∈ group,
        (∀ s ∈ group, low ≤ s ∧ s ≤ high) ∧ low ≤ mixed ∧ mixed ≤ high) ∧
      mixed.toInt = (sumOf group).tdiv (width channels) ∧
      mixed = (wordSum group / .ofNat (width channels)).toInt16 ∧
      ∀ part, part <+: group →
        (wordSum part).toInt = sumOf part ∧ -2 ^ 31 ≤ sumOf part ∧ sumOf part < 2 ^ 31) ∧
    ∀ front rest, channels.toNat ∣ front.length →
      downmix channels (front ++ rest) = downmix channels front ++ downmix channels rest := by
  refine ⟨fun hmany => ?_, fun hfew => if_pos hfew, fun k hk => ?_,
    fun front rest h => downmix_append h rest⟩
  · have hnot : ¬ channels ≤ 1 := UInt16.not_le.mpr hmany
    have hwidth : width channels = channels.toNat := if_neg hnot
    rw [length_downmix, hwidth]
  · intro mixed group
    have hpos := width_pos channels
    have hgroups : k < (groups (width channels) samples).length := by
      rw [length_groups hpos, ← length_downmix]
      exact hk
    have hgroup : (groups (width channels) samples)[k] = group := getElem_groups hpos hgroups
    have hlength : group.length = width channels := by
      rw [← hgroup]
      exact length_of_mem_groups (List.getElem_mem hgroups)
    have hmixed : mixed = average group := by
      simp only [mixed, downmix_eq, List.getElem_map, hgroup]
    have hsome : group ≠ [] := List.ne_nil_of_length_pos (hlength ▸ hpos)
    have haverage := average_spec hsome (hlength ▸ width_lt channels)
    rw [hmixed, ← hlength]
    refine ⟨haverage.between, haverage.exact_eq, haverage.word_eq, fun part hpart => ?_⟩
    have hfew : part.length < 65536 :=
      (hpart.length_le.trans_eq hlength).trans_lt (width_lt channels)
    exact ⟨toInt_wordSum hfew, sumOf_mem_word hfew⟩

/-- Loud stereo that rounds toward zero on either side of it, and a sample too many. -/
example : downmix 2 [-32768, -32767, 32767, 32766, 5] = [-32767, 32766] := by
  decide +kernel

end Parley.Audio
