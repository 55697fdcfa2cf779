import Mathlib.Algebra.Order.Floor.Semiring
import Parley.Proofs.Audio.Line
import Parley.Proofs.Audio.Thinning

/-!
# `Parley/Proofs/Audio/Interpolation.lean` — resampling does not depend on the chunks

Between chunks a resampler stands at the first multiple of its step that has no sample after it
yet, and remembers the last sample, for that multiple may fall between it and the next one
(`Resampler.Stands`). A chunk brings samples after some more multiples; these are read, and the
resampler stands again (`Resampler.process_stream`). So all chunks together come to the values of
the line through the whole input (`Resampler.processAll_stream`).

The calculation is exact wherever its precision keeps the parts of the step
(`Resampler.Sound`): always at the exact precision, and in fifty-three digits between rates whose
step has a power of two as its parts.
-/

set_option autoImplicit false

namespace Parley.Audio

open Parley.Arith

namespace Resampler

variable {r : Resampler} {limit : Nat}

/-! ## Positions in the whole input -/

/-- What stands on the line through samples at a multiple of a step, rounded. -/
def valueAt (step : Rat) (samples : List Int16) (k : Nat) : Int :=
  nearestAway (lineAt samples (k * step))

/-- How many multiples of a step have a sample after them, of so many samples. -/
def readable (step : Rat) (size : Nat) : Nat := ⌈((size : Rat) - 1) / step⌉₊

section Readable

variable {step : Rat} {size k : Nat}

theorem lt_readable_iff (hstep : 0 < step) : k < readable step size ↔ k * step < size - 1 := by
  rw [readable, Nat.lt_ceil, lt_div_iff₀ hstep]

theorem lt_readable_iff_floor (hstep : 0 < step) :
    k < readable step size ↔ (k * step).floor + 1 < (size : Int) := by
  have hfloor : (k * step).floor < (size : Int) - 1 ↔ k * step < ((size - 1 : Int) : Rat) :=
    Rat.floor_lt_iff
  push_cast at hfloor
  rw [lt_readable_iff hstep, ← hfloor]
  omega

theorem readable_zero (hstep : 0 < step) : readable step 0 = 0 := by
  refine Nat.eq_zero_of_not_pos fun hpos => ?_
  have := (lt_readable_iff hstep).mp hpos
  norm_num at this

theorem readable_le_append (hstep : 0 < step) (samples rest : List Int16) :
    readable step samples.length ≤ readable step (samples ++ rest).length := by
  refine Nat.ceil_le_ceil ((div_le_div_iff_of_pos_right hstep).mpr ?_)
  have hrest : (0 : Rat) ≤ rest.length := Nat.cast_nonneg _
  rw [List.length_append, Nat.cast_add]
  linarith

theorem le_readable_mul (hstep : 0 < step) (size : Nat) :
    (size : Rat) - 1 ≤ readable step size * step :=
  (div_le_iff₀ hstep).mp (Nat.le_ceil _)

theorem readable_mul_le (hstep : 0 < step) (size : Nat) :
    readable step size * step ≤ size + step := by
  rcases Nat.eq_zero_or_pos (readable step size) with hzero | hpos
  · rw [hzero, Nat.cast_zero, zero_mul]
    positivity
  · -- the last multiple that is read has a sample after it
    have hlast := (lt_readable_iff hstep).mp (Nat.sub_one_lt_of_lt hpos)
    rw [Nat.cast_sub hpos, Nat.cast_one, sub_mul, one_mul] at hlast
    linarith

/-- More input leaves the values that had a sample after them as they are. -/
theorem valueAt_append (hstep : 0 < step) (samples rest : List Int16)
    (hk : k < readable step samples.length) :
    valueAt step (samples ++ rest) k = valueAt step samples k := by
  have hnonneg : (0 : Rat) ≤ k * step := mul_nonneg (Nat.cast_nonneg k) hstep.le
  have hfloor : 0 ≤ (k * step).floor := Rat.le_floor_iff.mpr (by exact_mod_cast hnonneg)
  have hlt := (lt_readable_iff_floor hstep).mp hk
  rw [valueAt, lineAt, List.getD_append _ _ _ _ (by omega), List.getD_append _ _ _ _ (by omega)]
  rfl

/-- The values that have a sample after them once more samples follow, and had none before. -/
def completed (step : Rat) (seen more : List Int16) : List Int :=
  (List.range' (readable step seen.length)
    (readable step (seen ++ more).length - readable step seen.length)).map
    (valueAt step (seen ++ more))

theorem completed_nil (step : Rat) (seen : List Int16) : completed step seen [] = [] := by
  rw [completed, List.append_nil, Nat.sub_self]
  rfl

theorem completed_append (hstep : 0 < step) (seen chunk rest : List Int16) :
    completed step seen (chunk ++ rest) =
      completed step seen chunk ++ completed step (seen ++ chunk) rest := by
  have hle := readable_le_append hstep seen chunk
  have hle' := readable_le_append hstep (seen ++ chunk) rest
  have hsame : completed step seen chunk =
      (List.range' (readable step seen.length)
        (readable step (seen ++ chunk).length - readable step seen.length)).map
        (valueAt step (seen ++ chunk ++ rest)) := by
    refine List.map_congr_left fun k hk => ?_
    have hlt := (List.mem_range'_1.mp hk).2
    exact (valueAt_append hstep _ _ (by omega)).symm
  rw [hsame, completed, completed, ← List.append_assoc, ← List.map_append]
  generalize readable step (seen ++ chunk ++ rest).length = whole at hle'
  generalize readable step (seen ++ chunk).length = middle at hle hle'
  generalize readable step seen.length = start at hle
  have hmiddle : middle = start + 1 * (middle - start) := by omega
  have hwhole : whole - start = middle - start + (whole - middle) := by omega
  rw [hwhole, ← List.range'_append, ← hmiddle]

end Readable

/-- The sample at an index of the whole input, seen from a chunk that continues it. -/
theorem sampleAt_sub {seen : List Int16} (hprevious : r.previous = seen.getLast?.getD 0)
    (chunk : List Int16) {i : Nat} (h : seen.length ≤ i + 1) :
    r.sampleAt chunk.toArray ((i : Int) - seen.length) = (seen ++ chunk).getD i 0 := by
  unfold sampleAt
  by_cases hbefore : i < seen.length
  · have hlast : seen.length - 1 = i := by omega
    rw [if_pos (by omega), hprevious, List.getD_append _ _ _ _ hbefore, List.getLast?_eq_getElem?,
      hlast, List.getD_eq_getElem?_getD]
  · have hindex : ((i : Int) - seen.length).toNat = i - seen.length := by omega
    rw [if_neg (by omega), hindex, List.getD_append_right _ _ _ _ (by omega)]
    simp [Array.getD_eq_getD_getElem?]

/-! ## Chunk after chunk -/

/-- A resampler that changes the rate, and calculates exactly as long as no position is so far that
it comes to more parts than the limit. -/
structure Sound (r : Resampler) (limit : Nat) : Prop where
  step : 0 < r.step
  converts : r.isPassthrough = false
  keeps : r.precision.Keeps r.step.den limit
  samples : 65536 * r.step.den ≤ limit

/-- Whether the positions in so many samples come to no more parts than the limit. -/
def Spans (r : Resampler) (limit size : Nat) : Prop := (size + 1 + r.step) * r.step.den ≤ limit

/-- A resampler that has seen these samples: the next multiple of the step is the first that it did
not read yet. -/
structure Stands (r : Resampler) (seen : List Int16) : Prop where
  position : r.position = readable r.step seen.length * r.step - seen.length
  previous : r.previous = seen.getLast?.getD 0

section Stream

variable {seen chunk : List Int16} {k : Nat}

theorem isMultiple_position (r : Resampler) (k size : Nat) :
    IsMultiple r.step.den (k * r.step - size) := by
  have hmul := (IsMultiple.of_den r.step).intCast_mul k
  have hsub := hmul.sub (.intCast size)
  exact_mod_cast hsub

/-- What is read where a multiple of the step falls is on the line through the whole input. -/
theorem toInt_outputAt_sub (h : r.Sound limit) (hprevious : r.previous = seen.getLast?.getD 0)
    (chunk : List Int16) (hk : (seen.length : Rat) - 1 ≤ k * r.step) :
    (r.outputAt chunk.toArray (k * r.step - seen.length)).toInt =
      valueAt r.step (seen ++ chunk) k := by
  have hnonneg : (0 : Rat) ≤ k * r.step := mul_nonneg (Nat.cast_nonneg k) h.step.le
  have hpart : k * r.step - seen.length - ((k * r.step).floor - seen.length : Int) =
      k * r.step - (k * r.step).floor := by
    push_cast
    ring
  obtain ⟨i, hi⟩ := Int.eq_ofNat_of_zero_le (Rat.le_floor_iff.mpr (by exact_mod_cast hnonneg))
  have hbehind : seen.length ≤ i + 1 := by
    have hle : (seen.length : Int) - 1 ≤ (k * r.step).floor :=
      Rat.le_floor_iff.mpr (by push_cast; exact hk)
    omega
  have hnext : (i : Int) - seen.length + 1 = ((i + 1 : Nat) : Int) - seen.length := by
    push_cast
    ring
  rw [toInt_outputAt h.keeps h.samples _ (isMultiple_position r k _),
    floor_sub_natCast, hpart, hi, hnext,
    sampleAt_sub hprevious chunk hbehind, sampleAt_sub hprevious chunk (Nat.le_succ_of_le hbehind),
    valueAt, lineAt, hi, Int.toNat_natCast]

/-- The loop goes on as long as a sample follows in the whole input. -/
theorem floor_sub_lt_iff (hstep : 0 < r.step) (seen chunk : List Int16) (k : Nat) :
    (k * r.step - seen.length).floor + 1 < (chunk.toArray.size : Int) ↔
      k < readable r.step (seen ++ chunk).length := by
  rw [lt_readable_iff_floor hstep, floor_sub_natCast, List.length_append, List.size_toArray]
  push_cast
  omega

/-- The position after one that is read. -/
theorem round_position_add (h : r.Sound limit) (hspans : r.Spans limit chunk.length)
    (hk : (seen.length : Rat) - 1 ≤ k * r.step)
    (hread : k < readable r.step (seen ++ chunk).length) :
    r.precision.round (k * r.step - seen.length + r.step) =
      ((k + 1 : Nat) : Rat) * r.step - seen.length := by
  have hnext :
      k * r.step - seen.length + r.step = ((k + 1 : Nat) : Rat) * r.step - seen.length := by
    push_cast
    ring
  have hlt := (lt_readable_iff h.step).mp hread
  have hpos := h.step
  rw [List.length_append, Nat.cast_add] at hlt
  rw [hnext]
  refine h.keeps.round_eq (isMultiple_position r _ _) hspans ?_ ?_
  all_goals
    rw [← hnext]
    linarith

/-- The loop over a chunk reads the multiples of the step that have a sample after them now and had
none before, and ends at the first that still has none. -/
theorem reads_stream (h : r.Sound limit) (hprevious : r.previous = seen.getLast?.getD 0)
    (hspans : r.Spans limit chunk.length) (hk : (seen.length : Rat) - 1 ≤ k * r.step) :
    ∃ outputs,
      r.Reads chunk.toArray (k * r.step - seen.length) outputs
        ((max k (readable r.step (seen ++ chunk).length) : Nat) * r.step - seen.length) ∧
      outputs.map Int16.toInt =
        (List.range' k (readable r.step (seen ++ chunk).length - k)).map
          (valueAt r.step (seen ++ chunk)) := by
  generalize hleft : readable r.step (seen ++ chunk).length - k = left
  induction left generalizing k with
  | zero =>
    have hend : ¬ k < readable r.step (seen ++ chunk).length := by omega
    refine ⟨[], ?_, rfl⟩
    rw [Nat.max_eq_left (Nat.not_lt.mp hend)]
    exact .done (mt (floor_sub_lt_iff h.step seen chunk k).mp hend)
  | succ left ih =>
    have hread : k < readable r.step (seen ++ chunk).length := by omega
    have hafter : (seen.length : Rat) - 1 ≤ ((k + 1 : Nat) : Rat) * r.step := by
      have hpos := h.step
      push_cast
      linarith
    obtain ⟨outputs, hreads, hvalues⟩ := ih hafter (by omega)
    refine ⟨r.outputAt chunk.toArray (k * r.step - seen.length) :: outputs, ?_, ?_⟩
    · refine .read ((floor_sub_lt_iff h.step seen chunk k).mpr hread) ?_
      rw [round_position_add h hspans hk hread]
      have hmax : max (k + 1) (readable r.step (seen ++ chunk).length) =
          max k (readable r.step (seen ++ chunk).length) := by
        omega
      rwa [hmax] at hreads
    · rw [List.map_cons, hvalues, toInt_outputAt_sub h hprevious chunk hk, List.range'_succ,
        List.map_cons]

/-- There is room for what the loop over a chunk reads. -/
theorem length_le_bound (hstep : 0 < r.step) (hk : (seen.length : Rat) - 1 ≤ k * r.step) :
    readable r.step (seen ++ chunk).length - k ≤ r.bound chunk.length := by
  rcases Nat.lt_or_ge k (readable r.step (seen ++ chunk).length) with hlt | hge
  · generalize hleft : readable r.step (seen ++ chunk).length - k - 1 = left
    have hlast := (lt_readable_iff hstep).mp
      (by omega : k + left < readable r.step (seen ++ chunk).length)
    rw [List.length_append] at hlast
    push_cast at hlast
    have hceil : 2 * ((chunk.length : Rat) + 1) / r.step ≤
        ((2 * ((chunk.length : Rat) + 1) / r.step).ceil : Rat) := Rat.le_ceil
    rw [div_le_iff₀ hstep] at hceil
    rw [bound]
    generalize (2 * ((chunk.length : Rat) + 1) / r.step).ceil = ceil at hceil ⊢
    have hmul : (left : Rat) * r.step < ceil * r.step := by
      have hlength : (0 : Rat) ≤ chunk.length := Nat.cast_nonneg _
      nlinarith
    have hless : (left : Int) < ceil := by
      have := lt_of_mul_lt_mul_right hmul hstep.le
      exact_mod_cast this
    omega
  · omega

/-- The step stays as it is. -/
theorem sound_process (h : r.Sound limit) (chunk : List Int16) :
    (r.process chunk).2.Sound limit ∧ (r.process chunk).2.step = r.step := by
  unfold process
  split
  · exact ⟨h, rfl⟩
  · exact ⟨⟨h.step, h.converts, h.keeps, h.samples⟩, rfl⟩

/-- The position after the last one that is read, seen from the next chunk. -/
theorem round_position_sub (h : r.Sound limit) (hspans : r.Spans limit chunk.length) :
    r.precision.round
        (readable r.step (seen ++ chunk).length * r.step - seen.length - chunk.length) =
      readable r.step (seen ++ chunk).length * r.step - (seen ++ chunk).length := by
  have hnext : (readable r.step (seen ++ chunk).length : Rat) * r.step - seen.length -
      chunk.length = readable r.step (seen ++ chunk).length * r.step - (seen ++ chunk).length := by
    rw [List.length_append]
    push_cast
    ring
  have hlow := le_readable_mul h.step (seen ++ chunk).length
  have hhigh := readable_mul_le h.step (seen ++ chunk).length
  have hpos := h.step
  have hlength : (0 : Rat) ≤ chunk.length := Nat.cast_nonneg _
  rw [hnext]
  exact h.keeps.round_eq (isMultiple_position r _ _) hspans (by linarith) (by linarith)

/-- A chunk completes those values of the whole input that had no sample after them before; and the
loop that reads them ends. -/
theorem process_stream (h : r.Sound limit) (hstands : r.Stands seen)
    (hspans : r.Spans limit chunk.length) :
    (r.process chunk).1.map Int16.toInt = completed r.step seen chunk ∧
      (r.process chunk).2.Stands (seen ++ chunk) ∧
      (chunk ≠ [] → ∃ last, r.Reads chunk.toArray r.position (r.process chunk).1 last) := by
  by_cases hsome : chunk = []
  · have hnone : r.process [] = ([], r) := by simp [process]
    rw [hsome, hnone, completed_nil, List.append_nil]
    exact ⟨rfl, hstands, fun h => absurd rfl h⟩
  · have hreached := le_readable_mul h.step seen.length
    obtain ⟨outputs, hreads, hvalues⟩ := reads_stream h hstands.previous hspans hreached
    have hroom : outputs.length ≤ r.bound chunk.length := by
      have hlength := congrArg List.length hvalues
      rw [List.length_map, List.length_map, List.length_range'] at hlength
      rw [hlength]
      exact length_le_bound h.step hreached
    rw [← hstands.position, Nat.max_eq_right (readable_le_append h.step seen chunk)] at hreads
    rw [process_of_reads h.converts hsome hreads hroom]
    refine ⟨hvalues, ⟨round_position_sub h hspans, ?_⟩, fun _ => ⟨_, hreads⟩⟩
    show chunk.getLast?.getD 0 = _
    rw [List.getLast?_append]
    cases hlast : chunk.getLast? with
    | none => exact absurd (List.getLast?_eq_none_iff.mp hlast) hsome
    | some last => rfl

/-- Chunk after chunk completes the values of the whole input. -/
theorem processAll_stream (h : r.Sound limit) (hstands : r.Stands seen)
    {chunks : List (List Int16)} (hspans : ∀ chunk ∈ chunks, r.Spans limit chunk.length) :
    (r.processAll chunks).1.map Int16.toInt = completed r.step seen chunks.flatten ∧
      (r.processAll chunks).2.Stands (seen ++ chunks.flatten) ∧
      (r.processAll chunks).2.Sound limit ∧ (r.processAll chunks).2.step = r.step := by
  induction chunks generalizing r seen with
  | nil =>
    rw [List.flatten_nil, completed_nil, List.append_nil]
    exact ⟨rfl, hstands, h, rfl⟩
  | cons chunk rest ih =>
    obtain ⟨hsound, hstep⟩ := sound_process h chunk
    obtain ⟨hfirst, hstands', -⟩ := process_stream h hstands (hspans chunk List.mem_cons_self)
    have hspans' : ∀ c ∈ rest, (r.process chunk).2.Spans limit c.length := by
      intro c hc
      unfold Spans
      rw [hstep]
      exact hspans c (List.mem_cons_of_mem _ hc)
    obtain ⟨hrest, hstands'', hsound', hstep'⟩ := ih hsound hstands' hspans'
    rw [hstep] at hrest
    rw [List.append_assoc, ← List.flatten_cons] at hstands''
    refine ⟨?_, hstands'', hsound', hstep'.trans hstep⟩
    rw [processAll_cons, List.map_append, hfirst, hrest, List.flatten_cons, completed_append h.step]

end Stream

/-! ## From one rate to another -/

/-- Whether outputs are the values of the line through samples at the multiples of a step, as far as
a sample follows. -/
def Follows (step : Rat) (samples outputs : List Int16) : Prop :=
  ∀ k : Nat, outputs[k]?.map Int16.toInt =
    if (k * step).floor + 1 < (samples.length : Int)
    then some (nearestAway (lineAt samples (k * step)))
    else none

theorem Follows.unique {step : Rat} {samples outputs others : List Int16}
    (h : Follows step samples outputs) (h' : Follows step samples others) : outputs = others := by
  refine List.ext_getElem? fun k => ?_
  exact Option.map_injective (fun _ _ => Int16.toInt_inj.mp) ((h k).trans (h' k).symm)

theorem Follows.between {step : Rat} {samples outputs : List Int16}
    (h : Follows step samples outputs) {k : Nat} {output : Int16} (hk : outputs[k]? = some output) :
    let i := (k * step).floor.toNat
    min (samples.getD i 0).toInt (samples.getD (i + 1) 0).toInt ≤ output.toInt ∧
      output.toInt ≤ max (samples.getD i 0).toInt (samples.getD (i + 1) 0).toInt := by
  have hvalue := h k
  rw [hk, Option.map_some] at hvalue
  split at hvalue
  · rw [Option.some.inj hvalue]
    exact (between_lineAt samples (k * step)).nearestAway
  · cases hvalue

theorem follows_processAll (h : r.Sound limit) (hstands : r.Stands []) {chunks : List (List Int16)}
    (hspans : ∀ chunk ∈ chunks, r.Spans limit chunk.length) :
    Follows r.step chunks.flatten (r.processAll chunks).1 := by
  intro k
  obtain ⟨hvalues, -⟩ := processAll_stream h hstands hspans
  rw [completed, List.nil_append, List.length_nil, readable_zero h.step, Nat.sub_zero] at hvalues
  rw [← List.getElem?_map, hvalues, List.getElem?_map]
  by_cases hk : k < readable r.step chunks.flatten.length
  · rw [List.getElem?_range' hk, if_pos ((lt_readable_iff_floor h.step).mp hk), Nat.one_mul,
      Nat.zero_add]
    rfl
  · have hnone : readable r.step chunks.flatten.length ≤ k := Nat.not_lt.mp hk
    rw [List.getElem?_eq_none (by rwa [List.length_range']),
      if_neg (mt (lt_readable_iff_floor h.step).mpr hk)]
    rfl

section Rates

variable {inputRate outputRate : UInt32}

/-- The step between two rates. -/
def stepOf (inputRate outputRate : UInt32) : Rat := inputRate.toNat / outputRate.toNat

theorem stands_new (precision : Precision) (hstep : 0 < (new precision inputRate outputRate).step) :
    (new precision inputRate outputRate).Stands [] := by
  refine ⟨?_, rfl⟩
  rw [List.length_nil, readable_zero hstep]
  simp [new]

/-- Two rates that differ are told apart, however little they do. -/
theorem isPassthrough_of_ne (hout : 0 < outputRate.toNat) (hne : inputRate ≠ outputRate)
    (hstep : r.step = stepOf inputRate outputRate) : r.isPassthrough = false := by
  have hpos : (0 : Rat) < outputRate.toNat := by exact_mod_cast hout
  have hbelow : (outputRate.toNat : Rat) < 4294967296 := by exact_mod_cast outputRate.toNat_lt
  have hscaled : (r.step - 1) * outputRate.toNat = inputRate.toNat - outputRate.toNat := by
    rw [hstep, stepOf, sub_mul, div_mul_cancel₀ _ hpos.ne', one_mul]
  have hapart : 1 ≤ (r.step - 1).abs * outputRate.toNat := by
    rcases Nat.lt_or_gt_of_ne (mt UInt32.toNat_inj.mp hne) with hlt | hlt
    · have hless : (inputRate.toNat : Rat) + 1 ≤ outputRate.toNat := by exact_mod_cast hlt
      have hneg : r.step - 1 ≤ 0 := by
        refine le_of_mul_le_mul_right ?_ hpos
        linarith
      rw [Rat.abs_of_nonpos hneg]
      linarith
    · have hmore : (outputRate.toNat : Rat) + 1 ≤ inputRate.toNat := by exact_mod_cast hlt
      have hnonneg : 0 ≤ r.step - 1 := by
        refine le_of_mul_le_mul_right ?_ hpos
        linarith
      rw [Rat.abs_of_nonneg hnonneg]
      linarith
  have hparts : twoPow (-52) = 1 / 2 ^ 52 := by decide +kernel
  refine decide_eq_false fun hclose => ?_
  rw [hparts] at hclose
  have hless := mul_lt_mul_of_pos_right hclose hpos
  norm_num at hless
  linarith

theorem step_new_exact (hout : 0 < outputRate.toNat) :
    (new .exact inputRate outputRate).step = stepOf inputRate outputRate := by
  show (inputRate.toNat : Rat) / (max outputRate.toNat 1 : Nat) = _
  rw [Nat.max_eq_left hout]
  rfl

/-- The parts of a step are no more than the rates. -/
theorem stepOf_le (hin : 0 < inputRate.toNat) (hout : 0 < outputRate.toNat) :
    (stepOf inputRate outputRate).num.natAbs ≤ inputRate.toNat ∧
      (stepOf inputRate outputRate).den ≤ outputRate.toNat := by
  have hdiv : stepOf inputRate outputRate = Rat.divInt inputRate.toNat outputRate.toNat := by
    rw [Rat.divInt_eq_div]
    rfl
  have hne : (outputRate.toNat : Int) ≠ 0 := by omega
  have hnum := Rat.num_dvd inputRate.toNat hne
  have hden := Rat.den_dvd inputRate.toNat outputRate.toNat
  rw [← hdiv] at hnum hden
  exact ⟨Nat.le_of_dvd hin (Int.natAbs_dvd_natAbs.mpr hnum),
    Nat.le_of_dvd hout (by exact_mod_cast hden)⟩

/-- A step whose parts are a power of two is not rounded. -/
theorem step_new_double (hin : 0 < inputRate.toNat) (hout : 0 < outputRate.toNat) {e : Nat}
    (hden : (stepOf inputRate outputRate).den = 2 ^ e) :
    (new .double inputRate outputRate).step = stepOf inputRate outputRate := by
  have hlt := inputRate.toNat_lt
  have hsmall : (stepOf inputRate outputRate).num.natAbs ≤ 2 ^ 53 :=
    (stepOf_le hin hout).1.trans (by omega)
  have hkeeps : Precision.double.Keeps (stepOf inputRate outputRate).den (2 ^ 53) := by
    rw [hden]
    exact Precision.keeps_significant le_rfl
  show Precision.double.round ((inputRate.toNat : Rat) / (max outputRate.toNat 1 : Nat)) = _
  rw [Nat.max_eq_left hout]
  exact hkeeps _ _ (Rat.mul_den_eq_num _) hsmall

theorem stepOf_pos (hin : 0 < inputRate.toNat) (hout : 0 < outputRate.toNat) :
    0 < stepOf inputRate outputRate := by
  have hin' : (0 : Rat) < inputRate.toNat := by exact_mod_cast hin
  have hout' : (0 : Rat) < outputRate.toNat := by exact_mod_cast hout
  exact div_pos hin' hout'

/-- The exact resampler is sound up to any limit that leaves room for a sample. -/
theorem sound_exact (hin : 0 < inputRate.toNat) (hout : 0 < outputRate.toNat)
    (hne : inputRate ≠ outputRate) {limit : Nat}
    (hlimit : 65536 * (stepOf inputRate outputRate).den ≤ limit) :
    (new .exact inputRate outputRate).Sound limit := by
  have hstep : (new .exact inputRate outputRate).step = _ := step_new_exact hout
  refine ⟨?_, isPassthrough_of_ne hout hne hstep, Precision.keeps_exact _ _, ?_⟩
  · rw [hstep]
    exact stepOf_pos hin hout
  · rwa [hstep]

/-- The resampler that runs is sound between rates whose step has a power of two as its parts. -/
theorem sound_double (hin : 0 < inputRate.toNat) (hout : 0 < outputRate.toNat)
    (hne : inputRate ≠ outputRate) {e : Nat}
    (hden : (stepOf inputRate outputRate).den = 2 ^ e) :
    (new .double inputRate outputRate).Sound (2 ^ 53) := by
  have hstep := step_new_double hin hout hden
  have hlt := outputRate.toNat_lt
  have hle := (stepOf_le hin hout).2
  refine ⟨?_, isPassthrough_of_ne hout hne hstep, ?_, ?_⟩
  · rw [hstep]
    exact stepOf_pos hin hout
  · rw [hstep, hden]
    exact Precision.keeps_significant le_rfl
  · rw [hstep]
    omega

/-- Up to some limit, the exact resampler is sound and all chunks of an input are within it. -/
theorem exists_sound_exact (hin : 0 < inputRate.toNat) (hout : 0 < outputRate.toNat)
    (hne : inputRate ≠ outputRate) (chunks : List (List Int16)) :
    ∃ limit, (new .exact inputRate outputRate).Sound limit ∧
      ∀ chunk ∈ chunks, (new .exact inputRate outputRate).Spans limit chunk.length := by
  have hpos := stepOf_pos hin hout
  have hden : (0 : Rat) ≤ (stepOf inputRate outputRate).den := Nat.cast_nonneg _
  have hlength : (0 : Rat) ≤ chunks.flatten.length := Nat.cast_nonneg _
  obtain ⟨limit, hlimit⟩ : ∃ limit : Nat, (65536 + chunks.flatten.length +
      stepOf inputRate outputRate) * ((stepOf inputRate outputRate).den : Rat) ≤ limit :=
    ⟨_, Nat.le_ceil _⟩
  refine ⟨limit, sound_exact hin hout hne ?_, fun chunk hchunk => ?_⟩
  · have hsize : (65536 : Rat) ≤
        65536 + chunks.flatten.length + stepOf inputRate outputRate := by
      linarith
    exact_mod_cast (mul_le_mul_of_nonneg_right hsize hden).trans hlimit
  · have hle : (chunk.length : Rat) ≤ chunks.flatten.length := by
      exact_mod_cast (List.sublist_flatten_of_mem hchunk).length_le
    have hsize : (chunk.length : Rat) + 1 + stepOf inputRate outputRate ≤
        65536 + chunks.flatten.length + stepOf inputRate outputRate := by
      linarith
    rw [Spans, step_new_exact hout]
    exact (mul_le_mul_of_nonneg_right hsize hden).trans hlimit

theorem follows_exact (hin : 0 < inputRate.toNat) (hout : 0 < outputRate.toNat)
    (hne : inputRate ≠ outputRate) (chunks : List (List Int16)) :
    Follows (stepOf inputRate outputRate) chunks.flatten
      ((new .exact inputRate outputRate).processAll chunks).1 := by
  obtain ⟨limit, hsound, hspans⟩ := exists_sound_exact hin hout hne chunks
  rw [← step_new_exact hout]
  exact follows_processAll hsound (stands_new _ hsound.step) hspans

theorem follows_double (hin : 0 < inputRate.toNat) (hout : 0 < outputRate.toNat)
    (hne : inputRate ≠ outputRate) {e : Nat} (hden : (stepOf inputRate outputRate).den = 2 ^ e)
    {chunks : List (List Int16)}
    (hspans : ∀ chunk ∈ chunks, (chunk.length + 1 + stepOf inputRate outputRate) *
      (stepOf inputRate outputRate).den ≤ 2 ^ 53) :
    Follows (stepOf inputRate outputRate) chunks.flatten
      ((new .double inputRate outputRate).processAll chunks).1 := by
  have hsound := sound_double hin hout hne hden
  have hstep := step_new_double hin hout hden
  have hspans' : ∀ chunk ∈ chunks,
      (new .double inputRate outputRate).Spans (2 ^ 53) chunk.length := by
    intro chunk hchunk
    rw [Spans, hstep]
    exact_mod_cast hspans chunk hchunk
  rw [← hstep]
  exact follows_processAll hsound (stands_new _ hsound.step) hspans'

theorem exists_reads_exact (hin : 0 < inputRate.toNat) (hout : 0 < outputRate.toNat)
    (hne : inputRate ≠ outputRate) (front : List (List Int16)) {chunk : List Int16}
    (hsome : chunk ≠ []) :
    let r := ((new .exact inputRate outputRate).processAll front).2
    ∃ last, r.Reads chunk.toArray r.position (r.process chunk).1 last := by
  obtain ⟨limit, hsound, hspans⟩ := exists_sound_exact hin hout hne (front ++ [chunk])
  obtain ⟨-, hstands, hsound', hstep⟩ := processAll_stream hsound (stands_new _ hsound.step)
    fun c hc => hspans c (List.mem_append_left _ hc)
  have hlast : ((new .exact inputRate outputRate).processAll front).2.Spans limit chunk.length := by
    rw [Spans, hstep]
    exact hspans chunk (List.mem_append_right _ (List.mem_singleton_self chunk))
  exact (process_stream hsound' hstands hlast).2.2 hsome

theorem isPassthrough_new_self (precision : Precision) (hin : 0 < inputRate.toNat) :
    (new precision inputRate inputRate).isPassthrough = true := by
  cases precision with
  | significant bits => exact isPassthrough_new bits hin
  | exact =>
    have hstep : (new .exact inputRate inputRate).step = 1 := by
      rw [step_new_exact hin, stepOf, div_self]
      exact_mod_cast Nat.ne_of_gt hin
    rw [isPassthrough, hstep]
    decide +kernel

end Rates

/-- **What is resampled is the line through the samples.** Between two rates that differ, the
outputs are what stands on the line through the whole input at the multiples of the step, rounded,
as far as a sample follows, however the input is cut into chunks. Each of them lies between its two
neighbours, so that it is a sample as it is, and the loop over each chunk ends. Numbers of
fifty-three digits lose nothing of it if the parts of the step are a power of two and no chunk has
too many of them. Between a rate and itself the outputs are the input. -/
theorem processAll_follows_line {inputRate outputRate : UInt32} (hin : 0 < inputRate.toNat)
    (hout : 0 < outputRate.toNat) (chunks : List (List Int16)) :
    let step := stepOf inputRate outputRate
    let samples := chunks.flatten
    let outputs := ((new .exact inputRate outputRate).processAll chunks).1
    (inputRate ≠ outputRate →
      Follows step samples outputs ∧
      (∀ others : List (List Int16), others.flatten = samples →
        ((new .exact inputRate outputRate).processAll others).1 = outputs) ∧
      (∀ (k : Nat) (output : Int16), outputs[k]? = some output →
        let i := (k * step).floor.toNat
        min (samples.getD i 0).toInt (samples.getD (i + 1) 0).toInt ≤ output.toInt ∧
          output.toInt ≤ max (samples.getD i 0).toInt (samples.getD (i + 1) 0).toInt) ∧
      (∀ front chunk rest, chunks = front ++ chunk :: rest → chunk ≠ [] →
        let r := ((new .exact inputRate outputRate).processAll front).2
        ∃ last, r.Reads chunk.toArray r.position (r.process chunk).1 last) ∧
      (∀ e, step.den = 2 ^ e →
        (∀ chunk ∈ chunks, (chunk.length + 1 + step) * step.den ≤ 2 ^ 53) →
        ((new .double inputRate outputRate).processAll chunks).1 = outputs)) ∧
    (inputRate = outputRate → ∀ precision,
      ((new precision inputRate outputRate).processAll chunks).1 = samples) := by
  intro step samples outputs
  constructor
  · intro hne
    have hfollows : Follows step samples outputs := follows_exact hin hout hne chunks
    refine ⟨hfollows, ?_, fun k output => hfollows.between, ?_, ?_⟩
    · intro others hsame
      have hothers := follows_exact hin hout hne others
      rw [hsame] at hothers
      exact hothers.unique hfollows
    · intro front chunk rest _ hsome
      exact exists_reads_exact hin hout hne front hsome
    · intro e hden hspans
      exact (follows_double hin hout hne hden hspans).unique hfollows
  · rintro rfl precision
    rw [processAll_of_isPassthrough (isPassthrough_new_self precision hin)]

/-- Two outputs for three samples, of which a tie is rounded away from zero; one sample alone, none,
and two at a time. -/
theorem processAll_follows_line_of_two_thirds :
    let chunks : List (List Int16) := [[100], [], [7, -50], [-51, 300]]
    0 < (48000 : UInt32).toNat ∧ 0 < (32000 : UInt32).toNat ∧ (48000 : UInt32) ≠ 32000 ∧
      (stepOf 48000 32000).den = 2 ^ 1 ∧
      Follows (stepOf 48000 32000) chunks.flatten
        ((new .exact 48000 32000).processAll chunks).1 ∧
      ((new .exact 48000 32000).processAll chunks).1 = [100, -22, -51] ∧
      ((new .double 48000 32000).processAll chunks).1 = [100, -22, -51] ∧
      ((new .double 48000 48000).processAll chunks).1 = chunks.flatten := by
  intro chunks
  have hin : 0 < (48000 : UInt32).toNat := by decide
  have hout : 0 < (32000 : UInt32).toNat := by decide
  have hne : (48000 : UInt32) ≠ 32000 := by decide
  have hden : (stepOf 48000 32000).den = 2 ^ 1 := by decide +kernel
  have hspans : ∀ chunk ∈ chunks,
      (chunk.length + 1 + stepOf 48000 32000) * (stepOf 48000 32000).den ≤ 2 ^ 53 := by
    decide +kernel
  have houtputs : ((new .exact 48000 32000).processAll chunks).1 = [100, -22, -51] := by
    decide +kernel
  obtain ⟨hfollows, -, -, -, hdouble⟩ := (processAll_follows_line hin hout chunks).1 hne
  exact ⟨hin, hout, hne, hden, hfollows, houtputs, (hdouble 1 hden hspans).trans houtputs,
    (processAll_follows_line hin hin chunks).2 rfl .double⟩

end Resampler

end Parley.Audio
