import Parley.Arith.Precision

/-!
# `Parley/Audio/Resampler.lean` — from one sample rate to another

A resampler reads its input at equally spaced positions, one output sample each, and takes what
lies between two samples from the straight line through them. The input arrives in chunks. Between
chunks the resampler keeps its next position, counted from the first sample of the chunk to come,
and the last sample it has seen, which is the neighbour on the left of that first one. So a position
in a chunk is at least −1.

Positions are calculated at a `Precision`. At the exact one the outputs are those of the line
through the whole input, however it is cut into chunks.
-/

set_option autoImplicit false

namespace Parley.Audio

open Parley.Arith

structure Resampler where
  precision : Precision
  /-- Input samples per output sample. -/
  step : Rat
  /-- Where the next output is read. -/
  position : Rat
  /-- The last sample of the chunk before. -/
  previous : Int16
  deriving DecidableEq

namespace Resampler

def new (precision : Precision) (inputRate outputRate : UInt32) : Resampler :=
  { precision
    step := precision.round ((inputRate.toNat : Rat) / (max outputRate.toNat 1 : Nat))
    position := 0
    previous := 0 }

/-- Whether the two rates agree, so that samples pass as they are. -/
def isPassthrough (r : Resampler) : Bool := (r.step - 1).abs < twoPow (-52)

/-- Samples at the rate that is asked for pass as they are. -/
theorem isPassthrough_new (bits : Nat) {rate : UInt32} (h : 0 < rate.toNat) :
    (new (.significant bits) rate rate).isPassthrough = true := by
  have hrate : (rate.toNat : Rat) ≠ 0 := by
    intro hzero
    exact absurd (Rat.natCast_inj.mp hzero) (Nat.ne_of_gt h)
  have hquotient : (rate.toNat : Rat) / (max rate.toNat 1 : Nat) = 1 := by
    rw [Nat.max_eq_left h, Rat.div_def, Rat.mul_inv_cancel _ hrate]
  have hstep : (new (.significant bits) rate rate).step = 1 := by
    show (Precision.significant bits).round ((rate.toNat : Rat) / (max rate.toNat 1 : Nat)) = 1
    rw [hquotient]
    exact Precision.round_of_small rfl Nat.one_le_two_pow
  rw [isPassthrough, hstep, Rat.sub_self, Rat.abs_zero]
  decide

/-- The sample at an index of the chunk; left of the chunk stands the last one of the chunk before. -/
def sampleAt (r : Resampler) (chunk : Array Int16) (index : Int) : Int16 :=
  if index < 0 then r.previous else chunk.getD index.toNat 0

/-- A whole number as a sample, the nearest one if it is out of range. -/
def saturate (n : Int) : Int16 := Int16.ofInt (max (-32768) (min 32767 n))

/-- The output that is read at a position of the chunk. -/
def outputAt (r : Resampler) (chunk : Array Int16) (position : Rat) : Int16 :=
  let base := position.floor
  let fraction := r.precision.round (position - base)
  let a : Rat := (r.sampleAt chunk base).toInt
  let b : Rat := (r.sampleAt chunk (base + 1)).toInt
  let rise := r.precision.round (r.precision.round (b - a) * fraction)
  saturate (nearestAway (r.precision.round (a + rise)))

/-- The outputs from a position on, as long as both neighbours lie within the chunk, put before the
outputs read so far in reverse; and the first position that is not read. -/
def readFrom (r : Resampler) (chunk : Array Int16) :
    Nat → Rat → List Int16 → List Int16 × Rat
  | 0, position, out => (out, position)
  | fuel + 1, position, out =>
    if position.floor + 1 < (chunk.size : Int) then
      readFrom r chunk fuel (r.precision.round (position + r.step))
        (r.outputAt chunk position :: out)
    else (out, position)

/-- More than the number of outputs that a chunk has room for: each step moves the position by half
a step at least, whatever the rounding. -/
def bound (r : Resampler) (size : Nat) : Nat := (2 * ((size : Rat) + 1) / r.step).ceil.toNat + 1

/-- Takes one chunk in; the outputs that it completes come out. -/
def process (r : Resampler) (input : List Int16) : List Int16 × Resampler :=
  if r.isPassthrough || input.isEmpty then (input, r)
  else
    let chunk := input.toArray
    let (out, position) := r.readFrom chunk (r.bound chunk.size) r.position []
    (out.reverse,
      { r with
        position := r.precision.round (position - chunk.size)
        previous := chunk.back?.getD 0 })

end Resampler

end Parley.Audio
