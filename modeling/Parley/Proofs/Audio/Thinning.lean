import Mathlib.Data.List.GetD
import Mathlib.Data.Rat.Floor
import Parley.Proofs.Rtp.Chunks
import Parley.Proofs.Storage.Reading

/-!
# `Parley/Proofs/Audio/Thinning.lean` — one sample in each step

A resampler whose step is a whole number reads at whole positions only, where the line through two
samples goes through the first of them. So it takes one sample in each step, and no other, as long
as a sample follows it (`thin`). After a chunk of whole steps it stands at the beginning of the next
one, and so the chunks of a stream in pieces of whole steps come to what the stream in one piece
would (`Resampler.processAll_of_aligned`). All of this happens on whole numbers of few digits, which
no rounding touches.
-/

set_option autoImplicit false

namespace Parley.Audio

open Parley.Arith

/-! ## One sample in each step -/

/-- The samples whose index is a multiple of the step, as long as a sample follows them. -/
def thin (step : Nat) (samples : List Int16) : List Int16 :=
  ((List.range samples.length).filter fun k => step * k + 1 < samples.length).map fun k =>
    samples.getD (step * k) 0

/-- How many samples of so many are taken. -/
def kept (step size : Nat) : Nat := (size + step - 2) / step

variable {step size : Nat}

theorem lt_kept_iff (hstep : 2 ≤ step) (k : Nat) : k < kept step size ↔ step * k + 1 < size := by
  have hcomm : (k + 1) * step = step * k + step := by rw [Nat.succ_mul, Nat.mul_comm]
  rw [kept, ← Nat.succ_le_iff, Nat.le_div_iff_mul_le (by omega), Nat.succ_eq_add_one, hcomm]
  omega

theorem kept_le (hstep : 2 ≤ step) : kept step size ≤ size := by
  refine Nat.not_lt.mp fun hlt => ?_
  have hread := (lt_kept_iff hstep size).mp hlt
  have hge : size ≤ step * size := Nat.le_mul_of_pos_left size (by omega)
  omega

/-- Whole steps in front add as many samples. -/
theorem kept_add (hstep : 2 ≤ step) (count size : Nat) :
    kept step (step * count + size) = count + kept step size := by
  have hsum : step * count + size + step - 2 = size + step - 2 + step * count := by omega
  rw [kept, hsum, Nat.add_mul_div_left _ _ (by omega), Nat.add_comm]
  rfl

theorem kept_mul (hstep : 2 ≤ step) (count : Nat) : kept step (step * count) = count := by
  have hnone : kept step 0 = 0 := Nat.le_zero.mp (kept_le hstep)
  have hsum := kept_add hstep count 0
  rwa [hnone, Nat.add_zero, Nat.add_zero] at hsum

theorem thin_eq (hstep : 2 ≤ step) (samples : List Int16) :
    thin step samples =
      (List.range (kept step samples.length)).map fun k => samples.getD (step * k) 0 := by
  have hle : kept step samples.length ≤ samples.length := kept_le hstep
  obtain ⟨more, hmore⟩ := Nat.exists_eq_add_of_le hle
  have hread : ∀ k, (decide (step * k + 1 < samples.length)) =
      decide (k < kept step samples.length) := by
    intro k
    exact decide_eq_decide.mpr (lt_kept_iff hstep k).symm
  have hfilter : ((List.range samples.length).filter fun k => step * k + 1 < samples.length) =
      List.range (kept step samples.length) := by
    simp only [hread]
    generalize kept step samples.length = bound at hmore
    rw [hmore, List.range_add, List.filter_append, List.filter_eq_self.mpr,
      List.filter_eq_nil_iff.mpr, List.append_nil]
    · intro k hk
      obtain ⟨i, -, rfl⟩ := List.mem_map.mp hk
      simp
    · intro k hk
      exact decide_eq_true (List.mem_range.mp hk)
  rw [thin, hfilter]

theorem length_thin (hstep : 2 ≤ step) (samples : List Int16) :
    (thin step samples).length = kept step samples.length := by
  rw [thin_eq hstep, List.length_map, List.length_range]

theorem thin_append (hstep : 2 ≤ step) {front : List Int16} (h : step ∣ front.length)
    (rest : List Int16) : thin step (front ++ rest) = thin step front ++ thin step rest := by
  obtain ⟨count, hcount⟩ := h
  rw [thin_eq hstep, thin_eq hstep, thin_eq hstep, List.length_append, hcount, kept_add hstep,
    kept_mul hstep, List.range_add, List.map_append, List.map_map]
  congr 1
  · refine List.map_congr_left fun k hk => ?_
    have hlt : step * k < front.length := by
      rw [hcount]
      exact Nat.mul_lt_mul_of_pos_left (List.mem_range.mp hk) (by omega)
    rw [List.getD_append _ _ _ _ hlt]
  · refine List.map_congr_left fun k _ => ?_
    show (front ++ rest).getD (step * (count + k)) 0 = _
    rw [Nat.mul_add, ← hcount, List.getD_append_right _ _ _ _ (Nat.le_add_right _ _),
      Nat.add_sub_cancel_left]

/-! ## A resampler with a whole step -/

namespace Resampler

/-- A resampler that is to take the first sample of the next chunk, and then one in each step. -/
structure Aligned (step : Nat) (r : Resampler) : Prop where
  precision : r.precision = .double
  step : r.step = step
  position : r.position = 0

theorem round_intCast {n : Int} (h : n.natAbs ≤ 0x20000000000000) :
    Precision.double.round (n : Rat) = n :=
  Precision.round_of_small rfl h

theorem nearestAway_intCast (n : Int) : nearestAway n = n := by
  have hhalf (m : Int) : ((m : Rat) + 1 / 2).floor = m := by
    have hfloor : (1 / 2 : Rat).floor = 0 := by decide +kernel
    rw [Rat.add_comm, Rat.floor_add_intCast, hfloor, Int.zero_add]
  unfold nearestAway
  split
  · exact hhalf n
  · have hneg : -(n : Rat) = ((-n : Int) : Rat) := (Rat.intCast_neg n).symm
    rw [hneg, hhalf, Int.neg_neg]

/-- At a whole position the sample that stands there is read. -/
theorem outputAt_natCast {r : Resampler} (h : r.precision = .double) (chunk : Array Int16)
    (n : Nat) : r.outputAt chunk n = chunk.getD n 0 := by
  have hfloor : (n : Rat).floor = n := Rat.floor_intCast n
  have hzero : Precision.double.round 0 = 0 := round_intCast (n := 0) (by decide)
  have hsample : r.sampleAt chunk (n : Int) = chunk.getD n 0 := by
    rw [sampleAt, if_neg (by omega), Int.toNat_natCast]
  have hle := Int16.le_toInt (chunk.getD n 0)
  have hlt := Int16.toInt_lt (chunk.getD n 0)
  have hvalue : Precision.double.round ((chunk.getD n 0).toInt : Rat) = (chunk.getD n 0).toInt :=
    round_intCast (by omega)
  have hinside : saturate (chunk.getD n 0).toInt = chunk.getD n 0 := by
    rw [saturate, Int.min_eq_right (by omega), Int.max_eq_right (by omega), Int16.ofInt_toInt]
  simp only [outputAt, h, hfloor, hsample]
  rw [Rat.intCast_natCast, Rat.sub_self, hzero, Rat.mul_zero, hzero, Rat.add_zero, hvalue,
    nearestAway_intCast, hinside]

/-- The samples that stand a whole number of steps into the chunk are read, from the `k`-th on. -/
theorem readFrom_natCast {r : Resampler} (hprecision : r.precision = .double) (hr : r.step = step)
    (hstep : 2 ≤ step) (hsmall : step ≤ 0x10000) (chunk : Array Int16)
    (hsize : chunk.size ≤ 0x10000) (fuel k : Nat) (out : List Int16)
    (hfuel : kept step chunk.size ≤ k + fuel) :
    r.readFrom chunk fuel ((step * k : Nat) : Rat) out =
      (((List.range' k (kept step chunk.size - k)).map fun i =>
          chunk.getD (step * i) 0).reverse ++ out,
        ((step * max k (kept step chunk.size) : Nat) : Rat)) := by
  induction fuel generalizing k out with
  | zero =>
    have hnone : kept step chunk.size - k = 0 := Nat.sub_eq_zero_of_le hfuel
    rw [readFrom, hnone, Nat.max_eq_left (Nat.sub_eq_zero_iff_le.mp hnone)]
    rfl
  | succ fuel ih =>
    have hfloor : ((step * k : Nat) : Rat).floor = (step * k : Nat) := Rat.floor_intCast _
    have hread :
        (((step * k : Nat) : Int) + 1 < (chunk.size : Int)) ↔ k < kept step chunk.size := by
      rw [lt_kept_iff hstep]
      omega
    rw [readFrom, hfloor]
    by_cases hk : k < kept step chunk.size
    · have hnext : r.precision.round (((step * k : Nat) : Rat) + r.step) =
          ((step * (k + 1) : Nat) : Rat) := by
        have hsum : ((step * k : Nat) : Rat) + (step : Rat) =
            (((step * (k + 1) : Nat) : Int) : Rat) := by
          push_cast
          ring
        have hbelow := (lt_kept_iff hstep k).mp hk
        rw [hprecision, hr, hsum, round_intCast (by rw [Int.natAbs_natCast, Nat.mul_succ]; omega)]
        rfl
      have hmore : kept step chunk.size - k = (kept step chunk.size - (k + 1)) + 1 := by omega
      rw [if_pos (hread.mpr hk), hnext, ih (k + 1) _ (by omega), outputAt_natCast hprecision, hmore,
        List.range'_succ, List.map_cons, List.reverse_cons, List.append_assoc,
        Nat.max_eq_right (Nat.le_of_lt hk), Nat.max_eq_right (Nat.succ_le_of_lt hk)]
      rfl
    · have hnone : kept step chunk.size - k = 0 := by omega
      rw [if_neg (hk ∘ hread.mp), hnone, Nat.max_eq_left (by omega)]
      rfl

theorem kept_le_bound {r : Resampler} (hr : r.step = step) (hstep : 2 ≤ step) (size : Nat) :
    kept step size ≤ r.bound size := by
  have hpos : (0 : Rat) < (step : Rat) := by exact_mod_cast (by omega : 0 < step)
  have hceil : 2 * ((size : Rat) + 1) / step ≤ ((2 * ((size : Rat) + 1) / step).ceil : Rat) :=
    Rat.le_ceil
  rw [bound, hr]
  generalize (2 * ((size : Rat) + 1) / step).ceil = ceil at hceil ⊢
  have hmul : (2 * ((size : Int) + 1) : Int) ≤ ceil * step := by
    rw [div_le_iff₀ hpos] at hceil
    exact_mod_cast hceil
  have hkept : kept step size * step ≤ size + step - 2 := Nat.div_mul_le_self _ _
  have hlt : (kept step size : Int) * step < (ceil + 1) * step := by
    rw [Int.add_mul, Int.one_mul]
    omega
  have := Int.lt_of_mul_lt_mul_right hlt (by omega)
  omega

theorem not_isPassthrough {r : Resampler} (hr : r.step = step) (hstep : 2 ≤ step) :
    r.isPassthrough = false := by
  have hone : twoPow (-52) ≤ 1 := by decide +kernel
  have hcast : (2 : Rat) ≤ step := by exact_mod_cast hstep
  have hrest : (1 : Rat) ≤ step - 1 := by linarith
  have habs : ((step : Rat) - 1).abs = step - 1 := Rat.abs_of_nonneg (by linarith)
  refine decide_eq_false ?_
  rw [hr, habs, not_lt]
  exact hone.trans hrest

theorem process_of_ne_nil {r : Resampler} (h : r.Aligned step) (hstep : 2 ≤ step)
    (hsmall : step ≤ 0x10000) {chunk : List Int16} (hne : chunk ≠ [])
    (hsize : chunk.length ≤ 0x10000) :
    r.process chunk =
      (thin step chunk,
        { r with
          position := r.precision.round ((step * kept step chunk.length : Nat) - chunk.length)
          previous := chunk.toArray.back?.getD 0 }) := by
  have hread := readFrom_natCast h.precision h.step hstep hsmall chunk.toArray hsize
    (r.bound chunk.toArray.size) 0 [] (by
      rw [Nat.zero_add]
      exact kept_le_bound h.step hstep _)
  have hget : ∀ i, chunk.toArray.getD i 0 = chunk.getD i 0 := by
    simp [Array.getD_eq_getD_getElem?]
  have hsome : chunk.isEmpty = false := List.isEmpty_eq_false_iff.mpr hne
  rw [Nat.mul_zero, Nat.cast_zero, ← h.position, List.append_nil, Nat.sub_zero,
    Nat.zero_max] at hread
  simp only [hget, List.size_toArray] at hread
  rw [process, not_isPassthrough h.step hstep, hsome, thin_eq hstep, List.range_eq_range']
  simp only [hread, Bool.or_false, Bool.false_eq_true, if_false, List.reverse_reverse,
    List.size_toArray]

/-- Of one chunk the samples are taken; and after whole steps the next chunk is like it. -/
theorem process_of_aligned {r : Resampler} (h : r.Aligned step) (hstep : 2 ≤ step)
    (hsmall : step ≤ 0x10000) {chunk : List Int16} (hsize : chunk.length ≤ 0x10000) :
    (r.process chunk).1 = thin step chunk ∧
      (step ∣ chunk.length → (r.process chunk).2.Aligned step) := by
  by_cases hne : chunk = []
  · have hnone : r.process [] = ([], r) := by simp [process]
    rw [hne, hnone]
    exact ⟨rfl, fun _ => h⟩
  · rw [process_of_ne_nil h hstep hsmall hne hsize]
    refine ⟨rfl, fun hdvd => ⟨h.precision, h.step, ?_⟩⟩
    obtain ⟨count, hcount⟩ := hdvd
    show r.precision.round ((step * kept step chunk.length : Nat) - chunk.length) = 0
    rw [hcount, kept_mul hstep, Rat.sub_self, h.precision]
    exact round_intCast (n := 0) (by decide)

theorem processAll_cons (r : Resampler) (chunk : List Int16) (rest : List (List Int16)) :
    (r.processAll (chunk :: rest)).1 =
      (r.process chunk).1 ++ ((r.process chunk).2.processAll rest).1 := by
  rw [processAll]

theorem aligned_processAll {r : Resampler} (h : r.Aligned step) (hstep : 2 ≤ step)
    (hdvd : step ∣ size) (hpos : 0 < size) (hsize : size ≤ 0x10000) {chunks : List (List Int16)}
    (hfull : ∀ chunk ∈ chunks, chunk.length = size) : (r.processAll chunks).2.Aligned step := by
  have hsmall : step ≤ 0x10000 := Nat.le_trans (Nat.le_of_dvd hpos hdvd) hsize
  induction chunks generalizing r with
  | nil => exact h
  | cons chunk rest ih =>
    have hlength := hfull chunk List.mem_cons_self
    obtain ⟨-, hnext⟩ :=
      process_of_aligned h hstep hsmall (Nat.le_trans (Nat.le_of_eq hlength) hsize)
    simp only [processAll]
    exact ih (hnext (hlength ▸ hdvd)) fun c hc => hfull c (List.mem_cons_of_mem _ hc)

/-- Of a stream in pieces of whole steps the samples are taken as if it were one piece. -/
theorem processAll_of_aligned {r : Resampler} (h : r.Aligned step) (hstep : 2 ≤ step)
    (hdvd : step ∣ size) (hpos : 0 < size) (hsize : size ≤ 0x10000) {samples : List Int16}
    {pieces : List (List Int16)} (hpieces : InPieces size samples pieces) :
    (r.processAll pieces).1 = thin step samples := by
  have hsmall : step ≤ 0x10000 := Nat.le_trans (Nat.le_of_dvd hpos hdvd) hsize
  induction hpieces generalizing r with
  | none => rfl
  | last hlength =>
    obtain ⟨hout, -⟩ := process_of_aligned h hstep hsmall (Nat.le_trans hlength hsize)
    rw [processAll_cons, hout]
    exact List.append_nil _
  | more hlength rest ih =>
    obtain ⟨hout, hnext⟩ :=
      process_of_aligned h hstep hsmall (Nat.le_trans (Nat.le_of_eq hlength) hsize)
    rw [processAll_cons, hout, ih (hnext (hlength ▸ hdvd)), thin_append hstep (hlength ▸ hdvd)]

end Resampler

end Parley.Audio
