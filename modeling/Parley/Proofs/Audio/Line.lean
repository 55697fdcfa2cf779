import Mathlib.Tactic.Linarith
import Parley.Audio.Resampler
import Parley.Proofs.Arith.Rounding

/-!
# `Parley/Proofs/Audio/Line.lean` — what a resampler reads

At a position between two samples a resampler reads the straight line through them (`lineAt`). What
it reads lies between the two, and so does the whole number next to it; hence it is a sample, and
nothing of it is cut off (`Resampler.toInt_outputAt`).

The loop over a chunk goes on as long as both neighbours lie in the chunk. `Resampler.Reads` is that
loop with nothing to bound it; where it ends within the bound, the bound makes no difference
(`Resampler.process_of_reads`).
-/

set_option autoImplicit false

namespace Parley.Audio

open Parley.Arith

/-! ## The line through samples -/

/-- The straight line from one sample to the next, after a part of the way. -/
def onLine (a b : Int16) (part : Rat) : Rat := a.toInt + (b.toInt - a.toInt) * part

/-- The line through samples, each one away from the one before it. -/
def lineAt (samples : List Int16) (position : Rat) : Rat :=
  onLine (samples.getD position.floor.toNat 0) (samples.getD (position.floor.toNat + 1) 0)
    (position - position.floor)

/-- Whether a number is one of two samples or lies between them. -/
def Between (a b : Int16) (q : Rat) : Prop :=
  (min a.toInt b.toInt : Rat) ≤ q ∧ q ≤ (max a.toInt b.toInt : Rat)

theorem between_onLine (a b : Int16) {part : Rat} (hnonneg : 0 ≤ part) (hle : part ≤ 1) :
    Between a b (onLine a b part) := by
  unfold Between onLine
  rcases le_total (a.toInt : Rat) b.toInt with hab | hab
  · rw [min_eq_left hab, max_eq_right hab]
    constructor <;> nlinarith
  · rw [min_eq_right hab, max_eq_left hab]
    constructor <;> nlinarith

theorem part_nonneg (p : Rat) : 0 ≤ p - p.floor := sub_nonneg.mpr (Rat.floor_le p)

theorem part_lt_one (p : Rat) : p - p.floor < 1 := by
  have := Rat.lt_floor_add_one p
  push_cast at this
  linarith

theorem between_lineAt (samples : List Int16) (p : Rat) :
    Between (samples.getD p.floor.toNat 0) (samples.getD (p.floor.toNat + 1) 0)
      (lineAt samples p) :=
  between_onLine _ _ (part_nonneg p) (part_lt_one p).le

/-- Rounding does not lead out of the samples around it. -/
theorem Between.nearestAway {a b : Int16} {q : Rat} (h : Between a b q) :
    min a.toInt b.toInt ≤ nearestAway q ∧ nearestAway q ≤ max a.toInt b.toInt :=
  ⟨le_nearestAway (by push_cast; exact h.1), nearestAway_le (by push_cast; exact h.2)⟩

theorem toInt_bounds (a : Int16) : (-32768 : Rat) ≤ a.toInt ∧ (a.toInt : Rat) ≤ 32767 := by
  have hlow := Int16.le_toInt a
  have hhigh := Int16.toInt_lt a
  constructor
  · exact_mod_cast hlow
  · exact_mod_cast (by omega : a.toInt ≤ 32767)

namespace Resampler

/-- What lies between two samples is a sample when it is rounded. -/
theorem toInt_saturate {a b : Int16} {n : Int} (hlow : min a.toInt b.toInt ≤ n)
    (hhigh : n ≤ max a.toInt b.toInt) : (saturate n).toInt = n := by
  have ha := Int16.le_toInt a
  have ha' := Int16.toInt_lt a
  have hb := Int16.le_toInt b
  have hb' := Int16.toInt_lt b
  rw [saturate, Int.min_eq_right (by omega), Int.max_eq_right (by omega),
    Int16.toInt_ofInt_of_le (by omega) (by omega)]

variable {r : Resampler} {den limit : Nat}

/-- At a precision that keeps the parts of a sample, what is read at a position is on the line. -/
theorem toInt_outputAt (hkeeps : r.precision.Keeps den limit) (hlimit : 65536 * den ≤ limit)
    (chunk : Array Int16) {p : Rat} (hp : IsMultiple den p) :
    (r.outputAt chunk p).toInt =
      nearestAway (onLine (r.sampleAt chunk p.floor) (r.sampleAt chunk (p.floor + 1))
        (p - p.floor)) := by
  have hbound : (65536 : Rat) * den ≤ limit := by exact_mod_cast hlimit
  unfold outputAt
  dsimp only
  generalize r.sampleAt chunk p.floor = a
  generalize r.sampleAt chunk (p.floor + 1) = b
  have hpart : IsMultiple den (p - p.floor) := hp.sub (.intCast _)
  have hnonneg := part_nonneg p
  have hlt := part_lt_one p
  generalize p - p.floor = part at hpart hnonneg hlt
  have hbetween := between_onLine a b hnonneg hlt.le
  obtain ⟨ha, ha'⟩ := toInt_bounds a
  obtain ⟨hb, hb'⟩ := toInt_bounds b
  have hdifference : IsMultiple den ((b.toInt : Rat) - a.toInt) :=
    (IsMultiple.intCast _).sub (.intCast _)
  have hrise : IsMultiple den (((b.toInt : Rat) - a.toInt) * part) := by
    have hwhole := hpart.intCast_mul (b.toInt - a.toInt)
    rwa [Int.cast_sub] at hwhole
  have hline : IsMultiple den (a.toInt + ((b.toInt : Rat) - a.toInt) * part) :=
    (IsMultiple.intCast _).add hrise
  rw [hkeeps.round_eq hpart hbound (by linarith) (by linarith),
    hkeeps.round_eq hdifference hbound (by linarith) (by linarith),
    hkeeps.round_eq hrise hbound (by nlinarith) (by nlinarith),
    hkeeps.round_eq hline hbound (by nlinarith) (by nlinarith)]
  obtain ⟨hlow, hhigh⟩ := hbetween.nearestAway
  exact toInt_saturate hlow hhigh

/-! ## The loop over a chunk -/

/-- The loop over a chunk, with nothing to bound it: what it reads from a position on, and the
position at which it ends. -/
inductive Reads (r : Resampler) (chunk : Array Int16) : Rat → List Int16 → Rat → Prop
  | done {position : Rat} (h : ¬ position.floor + 1 < (chunk.size : Int)) :
      Reads r chunk position [] position
  | read {position last : Rat} {outputs : List Int16} (h : position.floor + 1 < (chunk.size : Int))
      (rest : Reads r chunk (r.precision.round (position + r.step)) outputs last) :
      Reads r chunk position (r.outputAt chunk position :: outputs) last

theorem readFrom_of_reads {chunk : Array Int16} {position last : Rat} {outputs : List Int16}
    (h : r.Reads chunk position outputs last) {fuel : Nat} (hfuel : outputs.length ≤ fuel)
    (out : List Int16) :
    r.readFrom chunk fuel position out = (outputs.reverse ++ out, last) := by
  induction h generalizing fuel out with
  | done h =>
    cases fuel with
    | zero => rfl
    | succ fuel => exact if_neg h
  | read h rest ih =>
    cases fuel with
    | zero => cases hfuel
    | succ fuel =>
      rw [readFrom, if_pos h, ih (Nat.le_of_succ_le_succ hfuel), List.reverse_cons,
        List.append_assoc]
      rfl

/-- A chunk is processed as the loop reads it, if it does not read more than there is room for. -/
theorem process_of_reads (hconverts : r.isPassthrough = false) {chunk outputs : List Int16}
    {last : Rat} (hsome : chunk ≠ [])
    (h : r.Reads chunk.toArray r.position outputs last)
    (hroom : outputs.length ≤ r.bound chunk.length) :
    r.process chunk =
      (outputs,
        { r with
          position := r.precision.round (last - chunk.length)
          previous := chunk.getLast?.getD 0 }) := by
  have hread := readFrom_of_reads h hroom []
  have hfull : chunk.isEmpty = false := List.isEmpty_eq_false_iff.mpr hsome
  rw [List.append_nil] at hread
  rw [process, hconverts, hfull]
  simp only [List.size_toArray, hread, Bool.or_false, Bool.false_eq_true, if_false,
    List.reverse_reverse, List.back?_toArray]

end Resampler

end Parley.Audio
