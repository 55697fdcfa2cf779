import Mathlib.Algebra.Order.Field.Basic
import Mathlib.Data.Rat.Cast.Order
import Mathlib.Tactic.Linarith
import Mathlib.Tactic.NormNum
import Mathlib.Tactic.Ring
import Parley.Proofs.Signaling.Reports

/-!
# `Parley/Proofs/Signaling/Levels.lean` — which levels are told

Volume and signal strength are two measures of the same kind. A reading is cut to a scale, 14 to 42
decibels below full scale for the one and 0 to 2 for the other, and what is told is the level on
that scale, from 0 to 1. It is told if the reading is the first of its attendee or differs on the
scale from the one before (`tells_levels`).

The presence itself compares levels, up to a tolerance, and remembers levels and not readings. In
exact arithmetic that comes to the same (`isNews_exact`): levels are multiples of a twenty-eighth or
a half, so two of them differ by far more than the tolerance or not at all.
-/

set_option autoImplicit false

namespace Parley

open Parley.Arith Parley.Wire

/-- What an attendee's sound is measured by. -/
inductive Measure where
  | volume
  | strength
  deriving DecidableEq

namespace Measure

def reading? : Measure → AudioAttendeeState → Option UInt32
  | .volume, state => state.volume
  | .strength, state => state.signalStrength

/-- A reading cut to the scale of its measure. -/
def onScale : Measure → UInt32 → Nat
  | .volume, reading => min (max reading.toNat 14) 42
  | .strength, reading => min reading.toNat 2

/-- The level that a reading stands for. Volumes are readings of how much is missing, so that the
greatest stands for silence. -/
def level (k : Measure) (reading : UInt32) : Rat :=
  match k with
  | .volume => (42 - k.onScale reading) / 28
  | .strength => k.onScale reading / 2

/-- Whether a reading is news after the one before it. -/
def isNews (k : Measure) (before : Option UInt32) (reading : UInt32) : Bool :=
  before.map k.onScale != some (k.onScale reading)

/-- The updates of this measure that an event tells, if it is an event of this measure. -/
def updates? : Measure → Event → Option (List LevelUpdate)
  | .volume, .volumes updates => some updates
  | .strength, .signalStrengths updates => some updates
  | _, _ => none

/-- The reading of an attendee that a state brings, if its stream has an owner. -/
def report? (k : Measure) (past : List AudioStreamIdInfo) (state : AudioAttendeeState) :
    Option (Report UInt32) := do
  let stream ← state.audioStreamId
  let who ← owner past stream
  let reading ← k.reading? state
  return ⟨who, reading⟩

/-- The readings that a frame brings, after earlier news of the streams. -/
def reportsOf (k : Measure) (past : List AudioStreamIdInfo) : AudioFrame → List (Report UInt32)
  | .streams _ => []
  | .metadata f => f.attendeeStates.filterMap (k.report? past)

/-- The readings that frames bring, after earlier news of the streams. -/
def reports (k : Measure) (past : List AudioStreamIdInfo) : List AudioFrame → List (Report UInt32)
  | [] => []
  | frame :: rest => k.reportsOf past frame ++ k.reports (past ++ frame.news) rest

/-! ## Levels -/

/-- The level as it is calculated. -/
def calculated : Measure → Precision → UInt32 → Rat
  | .volume => Presence.volumeLevel
  | .strength => Presence.strengthLevel

theorem clamp_of_neg {q : Rat} (h : q < 0) : Presence.clamp q = 0 := if_pos h

theorem clamp_of_one_lt {q : Rat} (h : 1 < q) : Presence.clamp q = 1 := by
  rw [Presence.clamp, if_neg (by linarith), if_pos h]

theorem clamp_of_mem {q : Rat} (hlow : 0 ≤ q) (hhigh : q ≤ 1) : Presence.clamp q = q := by
  rw [Presence.clamp, if_neg hlow.not_gt, if_neg hhigh.not_gt]

/-- In exact arithmetic it makes no difference whether a reading is cut to its scale first or its
level is cut to the numbers from 0 to 1 in the end. -/
theorem calculated_exact (k : Measure) (reading : UInt32) :
    k.calculated .exact reading = k.level reading := by
  cases k with
  | volume =>
    show Presence.clamp (1 - (-(reading.toNat : Rat) + 14) / (-28)) =
      (42 - (min (max reading.toNat 14) 42 : Nat)) / 28
    have hline : (1 : Rat) - (-(reading.toNat : Rat) + 14) / (-28) = (42 - reading.toNat) / 28 := by
      ring
    rw [hline]
    rcases Nat.lt_or_ge reading.toNat 14 with hloud | hsoft
    · have hcut : min (max reading.toNat 14) 42 = 14 := by omega
      have hlt : (reading.toNat : Rat) < 14 := by exact_mod_cast hloud
      rw [hcut, clamp_of_one_lt (by linarith)]
      norm_num
    · have hge : (14 : Rat) ≤ reading.toNat := by exact_mod_cast hsoft
      rcases Nat.lt_or_ge 42 reading.toNat with hsilent | hheard
      · have hcut : min (max reading.toNat 14) 42 = 42 := by omega
        have hlt : (42 : Rat) < reading.toNat := by exact_mod_cast hsilent
        rw [hcut, clamp_of_neg (by linarith)]
        norm_num
      · have hcut : min (max reading.toNat 14) 42 = reading.toNat := by omega
        have hle : (reading.toNat : Rat) ≤ 42 := by exact_mod_cast hheard
        rw [hcut, clamp_of_mem (by linarith) (by linarith)]
  | strength =>
    show Presence.clamp ((reading.toNat : Rat) / 2) = (min reading.toNat 2 : Nat) / 2
    have hpos : (0 : Rat) ≤ reading.toNat := Nat.cast_nonneg _
    rcases Nat.lt_or_ge 2 reading.toNat with hstrong | hweak
    · have hlt : (2 : Rat) < reading.toNat := by exact_mod_cast hstrong
      rw [clamp_of_one_lt (by linarith), Nat.min_eq_right hstrong.le]
      norm_num
    · have hle : (reading.toNat : Rat) ≤ 2 := by exact_mod_cast hweak
      rw [clamp_of_mem (by linarith) (by linarith), Nat.min_eq_left hweak]

theorem level_mem (k : Measure) (reading : UInt32) : 0 ≤ k.level reading ∧ k.level reading ≤ 1 := by
  cases k with
  | volume =>
    have hlow : 14 ≤ onScale .volume reading := by simp only [onScale]; omega
    have hhigh : onScale .volume reading ≤ 42 := Nat.min_le_right _ _
    have hlow' : (14 : Rat) ≤ onScale .volume reading := by exact_mod_cast hlow
    have hhigh' : (onScale .volume reading : Rat) ≤ 42 := by exact_mod_cast hhigh
    simp only [level]
    constructor <;> linarith
  | strength =>
    have hhigh : onScale .strength reading ≤ 2 := Nat.min_le_right _ _
    have hpos : (0 : Rat) ≤ onScale .strength reading := Nat.cast_nonneg _
    have hhigh' : (onScale .strength reading : Rat) ≤ 2 := by exact_mod_cast hhigh
    simp only [level]
    constructor <;> linarith

/-- Multiples of one part in a few differ by more than the tolerance, or not at all. -/
theorem tolerance_le_abs_iff (a b span : Nat) (hpos : 0 < span) (hfew : span ≤ 1000000) :
    (1 / 1000000 : Rat) ≤ (((a : Rat) - b) / span).abs ↔ a ≠ b := by
  have hspan : (0 : Rat) < span := by exact_mod_cast hpos
  have hfew' : (span : Rat) ≤ 1000000 := by exact_mod_cast hfew
  have hpart : (1 / 1000000 : Rat) ≤ 1 / span := one_div_le_one_div_of_le hspan hfew'
  have apart (x y : Nat) (hlt : y < x) : (1 / 1000000 : Rat) ≤ (((x : Rat) - y) / span).abs := by
    have hone : (y : Rat) + 1 ≤ x := by exact_mod_cast hlt
    have hle : 1 / (span : Rat) ≤ ((x : Rat) - y) / span :=
      div_le_div_of_nonneg_right (by linarith) hspan.le
    rw [Rat.abs_of_nonneg (by linarith)]
    exact hpart.trans hle
  rcases Nat.lt_trichotomy a b with hlt | rfl | hgt
  · have hflip : ((a : Rat) - b) / span = -(((b : Rat) - a) / span) := by ring
    rw [hflip, Rat.abs_neg]
    exact iff_of_true (apart b a hlt) (Nat.ne_of_lt hlt)
  · rw [sub_self, zero_div, Rat.abs_of_nonneg le_rfl]
    exact iff_of_false (by norm_num) (not_not.mpr rfl)
  · exact iff_of_true (apart a b hgt) (Nat.ne_of_gt hgt)

/-- In exact arithmetic a level is news exactly if its reading is. -/
theorem isNews_exact (k : Measure) (before : Option UInt32) (reading : UInt32) :
    Presence.isNews .exact (before.map (k.calculated .exact)) (k.calculated .exact reading) =
      k.isNews before reading := by
  cases before with
  | none => rfl
  | some old =>
    rw [Option.map_some, calculated_exact, calculated_exact, Bool.eq_iff_iff]
    show decide ((1 / 1000000 : Rat) ≤ (k.level old - k.level reading).abs) = true ↔
      (some (k.onScale old) != some (k.onScale reading)) = true
    rw [decide_eq_true_iff, bne_iff_ne, ne_eq, Option.some_inj]
    cases k with
    | volume =>
      have hsub : level .volume old - level .volume reading =
          ((onScale .volume reading : Rat) - onScale .volume old) / (28 : Nat) := by
        simp only [level]
        push_cast
        ring
      rw [hsub, tolerance_le_abs_iff _ _ 28 (by decide) (by decide)]
      exact ne_comm
    | strength =>
      have hsub : level .strength old - level .strength reading =
          ((onScale .strength old : Rat) - onScale .strength reading) / (2 : Nat) := by
        simp only [level]
        push_cast
        ring
      rw [hsub, tolerance_le_abs_iff _ _ 2 (by decide) (by decide)]

/-! ## What a presence remembers -/

/-- The levels that a presence remembers. -/
def memory : Measure → Presence → Table String Rat
  | .volume, s => s.volumes
  | .strength, s => s.strengths

/-- What is told of this measure, of the volumes and strengths that are told. -/
def pick : Measure → List LevelUpdate × List LevelUpdate → List LevelUpdate
  | .volume, updates => updates.1
  | .strength, updates => updates.2

/-- Whether a level is news after the one before it, at some precision. -/
def isNewsAt (k : Measure) (p : Precision) (before : Option UInt32) (reading : UInt32) : Bool :=
  Presence.isNews p (before.map (k.calculated p)) (k.calculated p reading)

def update (k : Measure) (p : Precision) (r : Report UInt32) : LevelUpdate :=
  { attendee := r.who, level := k.calculated p r.value }

theorem pick_append (k : Measure) (updates more : List LevelUpdate × List LevelUpdate) :
    k.pick (updates.1 ++ more.1, updates.2 ++ more.2) = k.pick updates ++ k.pick more := by
  cases k <;> rfl

end Measure

namespace Presence

/-- A presence remembers the last reading of each attendee, as a level. -/
def Remembers (s : Presence) (k : Measure) (reports : List (Report UInt32)) : Prop :=
  ∀ a, (k.memory s).get? a = (lastOf a reports).map (k.calculated s.precision)

variable {s : Presence} {past : List AudioStreamIdInfo} {reports : List (Report UInt32)}
  {k : Measure}

/-! ### How attendees sound -/

theorem onAttendeeState_of_unowned {state : AudioAttendeeState} (h : s.Owns past)
    (unowned : ∀ stream, state.audioStreamId = some stream → owner past stream = none) :
    s.onAttendeeState state = (s, [], []) := by
  cases hstream : state.audioStreamId with
  | none => simp [onAttendeeState, hstream]
  | some stream => simp [onAttendeeState, hstream, h.attendeeOf, unowned stream hstream]

theorem onAttendeeStates_append (s : Presence) (states more : List AudioAttendeeState) :
    s.onAttendeeStates (states ++ more) =
      let (t, volumes, strengths) := s.onAttendeeStates states
      let (t, moreVolumes, moreStrengths) := t.onAttendeeStates more
      (t, volumes ++ moreVolumes, strengths ++ moreStrengths) := by
  induction states generalizing s with
  | nil => rfl
  | cons state rest ih => simp [onAttendeeStates, ih]

/-- A state of a stream that nobody owns may be left out. -/
theorem onAttendeeStates_of_unowned {state : AudioAttendeeState} (h : s.Owns past)
    (unowned : ∀ stream, state.audioStreamId = some stream → owner past stream = none)
    (before after : List AudioAttendeeState) :
    s.onAttendeeStates (before ++ state :: after) = s.onAttendeeStates (before ++ after) := by
  have hstate := onAttendeeState_of_unowned (h.onAttendeeStates before) unowned
  rw [onAttendeeStates_append, onAttendeeStates_append]
  simp [Presence.onAttendeeStates, hstate]

theorem reportVolume_eq {stream : UInt32} {who : Attendee} {reading : UInt32}
    (hwho : s.attendee stream who.attendeeId = who) :
    s.reportVolume stream who.attendeeId reading =
      ({ s with volumes := s.volumes.insert who.attendeeId (volumeLevel s.precision reading) },
        if isNews s.precision (s.volumes.get? who.attendeeId) (volumeLevel s.precision reading) then
          [Measure.volume.update s.precision ⟨who, reading⟩] else []) := by
  rw [reportVolume, hwho]
  rfl

theorem reportStrength_eq {stream : UInt32} {who : Attendee} {reading : UInt32}
    (hwho : s.attendee stream who.attendeeId = who) :
    s.reportStrength stream who.attendeeId reading =
      ({ s with
          strengths := s.strengths.insert who.attendeeId (strengthLevel s.precision reading) },
        if isNews s.precision (s.strengths.get? who.attendeeId)
            (strengthLevel s.precision reading) then
          [Measure.strength.update s.precision ⟨who, reading⟩] else []) := by
  rw [reportStrength, hwho]
  rfl

/-- One state is taken note of in each measure by itself. -/
theorem onAttendeeState_memory (h : s.Owns past) (k : Measure) (state : AudioAttendeeState) :
    k.memory (s.onAttendeeState state).1 =
        (k.report? past state).elim (k.memory s)
          (fun r => (k.memory s).insert r.who.attendeeId (k.calculated s.precision r.value)) ∧
      k.pick (s.onAttendeeState state).2 =
        (k.report? past state).elim []
          (fun r => if isNews s.precision ((k.memory s).get? r.who.attendeeId)
              (k.calculated s.precision r.value) then [k.update s.precision r] else []) := by
  by_cases unowned : ∀ stream, state.audioStreamId = some stream → owner past stream = none
  · have hreport : k.report? past state = none := by
      cases hstream : state.audioStreamId with
      | none => simp [Measure.report?, hstream]
      | some stream => simp [Measure.report?, hstream, unowned stream hstream]
    rw [onAttendeeState_of_unowned h unowned, hreport]
    cases k <;> exact ⟨rfl, rfl⟩
  · obtain ⟨stream, hstream, hsome⟩ : ∃ stream, state.audioStreamId = some stream ∧
        owner past stream ≠ none := by simpa using unowned
    obtain ⟨who, howner⟩ := Option.ne_none_iff_exists'.mp hsome
    have hget : s.attendeeOf.get? stream = some who.attendeeId := by
      rw [h.attendeeOf, howner]
      rfl
    have hwho := h.attendee_eq howner
    have hreport : k.report? past state = (k.reading? state).map (⟨who, ·⟩) := by
      simp only [Measure.report?, hstream, howner, Option.bind_eq_bind, Option.bind_some]
      cases k.reading? state <;> rfl
    rw [hreport]
    cases k with
    | volume =>
      cases hreading : state.volume with
      | none =>
        simp only [onAttendeeState, hstream, hget, hreading, Measure.reading?]
        cases state.signalStrength <;> exact ⟨rfl, rfl⟩
      | some reading =>
        simp only [onAttendeeState, hstream, hget, hreading, Measure.reading?,
          reportVolume_eq hwho]
        cases state.signalStrength <;> exact ⟨rfl, rfl⟩
    | strength =>
      -- the volume is taken note of first, which changes nothing here
      have hafter (table : Table String Rat) :
          ({ s with volumes := table } : Presence).attendee stream who.attendeeId = who := hwho
      cases hreading : state.signalStrength with
      | none =>
        simp only [onAttendeeState, hstream, hget, hreading, Measure.reading?]
        cases state.volume <;> exact ⟨rfl, rfl⟩
      | some reading =>
        simp only [onAttendeeState, hstream, hget, hreading, Measure.reading?]
        cases state.volume with
        | none =>
          simp only [reportStrength_eq hwho]
          exact ⟨rfl, rfl⟩
        | some volume =>
          simp only [reportVolume_eq hwho, reportStrength_eq (hafter _)]
          exact ⟨rfl, rfl⟩

theorem Remembers.onAttendeeState (h : s.Remembers k reports) (owns : s.Owns past)
    (state : AudioAttendeeState) :
    let report := (k.report? past state).toList
    (s.onAttendeeState state).1.Remembers k (reports ++ report) ∧
      k.pick (s.onAttendeeState state).2 =
        (told (k.isNewsAt s.precision) reports report).map (k.update s.precision) := by
  intro report
  obtain ⟨hmemory, htold⟩ := onAttendeeState_memory owns k state
  obtain ⟨volumes, strengths, hnext⟩ := onAttendeeState_eq s state
  have hprecision : (s.onAttendeeState state).1.precision = s.precision := by rw [hnext]
  unfold Remembers
  rw [hmemory, hprecision, htold]
  subst report
  cases k.report? past state with
  | none =>
    rw [Option.toList_none, List.append_nil]
    exact ⟨h, rfl⟩
  | some r =>
    refine ⟨get?_insert_report h r, ?_⟩
    rw [Option.elim_some, Option.toList_some, h r.who.attendeeId, told, told, List.append_nil,
      apply_ite (List.map _)]
    rfl

theorem Remembers.onAttendeeStates (h : s.Remembers k reports) (owns : s.Owns past)
    (states : List AudioAttendeeState) :
    let news := states.filterMap (k.report? past)
    (s.onAttendeeStates states).1.Remembers k (reports ++ news) ∧
      k.pick (s.onAttendeeStates states).2 =
        (told (k.isNewsAt s.precision) reports news).map (k.update s.precision) := by
  induction states generalizing s reports with
  | nil => cases k <;> exact ⟨by simpa [Presence.onAttendeeStates] using h, rfl⟩
  | cons state rest ih =>
    obtain ⟨hstep, htold⟩ := h.onAttendeeState owns state
    obtain ⟨hrest, hmore⟩ := ih hstep (owns.onAttendeeState state)
    obtain ⟨volumes, strengths, hnext⟩ := onAttendeeState_eq s state
    have hprecision : (s.onAttendeeState state).1.precision = s.precision := by rw [hnext]
    have hnews : (state :: rest).filterMap (k.report? past) =
        (k.report? past state).toList ++ rest.filterMap (k.report? past) := by
      cases hreport : k.report? past state <;> simp [hreport]
    have hcons : s.onAttendeeStates (state :: rest) =
        (((s.onAttendeeState state).1.onAttendeeStates rest).1,
          (s.onAttendeeState state).2.1 ++ ((s.onAttendeeState state).1.onAttendeeStates rest).2.1,
          (s.onAttendeeState state).2.2 ++
            ((s.onAttendeeState state).1.onAttendeeStates rest).2.2) := rfl
    rw [hprecision] at hmore
    dsimp only
    rw [hcons, hnews, told_append, List.map_append, ← List.append_assoc, Measure.pick_append, htold,
      hmore]
    exact ⟨hrest, rfl⟩

/-! ### News of the streams -/

/-- News of the streams change nothing that is known of how attendees sound. -/
theorem onStreamInfo_eq (s : Presence) (info : AudioStreamIdInfo) :
    ∃ attendeeOf externalIdOf streamOf muted,
      (s.onStreamInfo info).1 = { s with attendeeOf, externalIdOf, streamOf, muted } := by
  unfold onStreamInfo
  split
  · exact ⟨_, _, _, _, rfl⟩
  · split
    · unfold remove
      split <;> exact ⟨_, _, _, _, rfl⟩
    · exact ⟨_, _, _, _, rfl⟩
    · obtain ⟨table, hnext⟩ := reportMute_eq s _ _
      exact ⟨_, _, _, _, hnext⟩
    · obtain ⟨table, hnext⟩ := reportMute_eq (s.announce _ _ _).1 _ _
      exact ⟨_, _, _, _, hnext⟩

theorem onStreams_eq (s : Presence) (infos : List AudioStreamIdInfo) :
    ∃ attendeeOf externalIdOf streamOf muted,
      (s.onStreams infos).1 = { s with attendeeOf, externalIdOf, streamOf, muted } := by
  induction infos generalizing s with
  | nil => exact ⟨_, _, _, _, rfl⟩
  | cons info rest ih =>
    obtain ⟨_, _, _, _, hfirst⟩ := onStreamInfo_eq s info
    obtain ⟨attendeeOf, externalIdOf, streamOf, muted, hrest⟩ := ih (s.onStreamInfo info).1
    refine ⟨attendeeOf, externalIdOf, streamOf, muted, hrest.trans ?_⟩
    rw [hfirst]

/-- Nor do they tell anything of it. -/
theorem updates?_onStreamInfo (s : Presence) (k : Measure) (info : AudioStreamIdInfo) :
    (s.onStreamInfo info).2.filterMap k.updates? = [] := by
  have announced : ∀ stream id external,
      (s.announce stream id external).2.filterMap k.updates? = [] := by
    intro stream id external
    simp only [announce]
    cases k <;> split <;> rfl
  have reported : ∀ (t : Presence) stream muted,
      (t.reportMute stream muted).2.filterMap k.updates? = [] := by
    intro t stream muted
    unfold reportMute
    split
    · rfl
    · dsimp only
      cases k <;> split <;> first | rfl | (split <;> rfl)
  unfold onStreamInfo
  split
  · rfl
  · split
    · unfold remove
      split
      · rfl
      · dsimp only
        cases k <;> split <;> first | rfl | (split <;> rfl)
    · exact announced _ _ _
    · exact reported s _ _
    · rw [List.filterMap_append, announced, reported]
      rfl

theorem updates?_onStreams (s : Presence) (k : Measure) (infos : List AudioStreamIdInfo) :
    (s.onStreams infos).2.filterMap k.updates? = [] := by
  induction infos generalizing s with
  | nil => rfl
  | cons info rest ih =>
    show ((s.onStreamInfo info).2 ++ ((s.onStreamInfo info).1.onStreams rest).2).filterMap _ = []
    rw [List.filterMap_append, updates?_onStreamInfo, ih]
    rfl

/-! ### Runs -/

theorem take_precision (s : Presence) (frame : AudioFrame) :
    (s.take frame).1.precision = s.precision := by
  cases frame with
  | streams f =>
    obtain ⟨_, _, _, _, hnext⟩ := onStreams_eq s f.streams
    show (s.onStreams f.streams).1.precision = s.precision
    rw [hnext]
  | metadata f =>
    obtain ⟨_, _, hnext⟩ := onAttendeeStates_eq s f.attendeeStates
    show (s.onAttendeeStates f.attendeeStates).1.precision = s.precision
    rw [hnext]

theorem takeAll_precision (s : Presence) (frames : List AudioFrame) :
    (s.takeAll frames).1.precision = s.precision := by
  induction frames generalizing s with
  | nil => rfl
  | cons frame rest ih => exact (ih (s.take frame).1).trans (take_precision s frame)

/-- A metadata frame tells at most one event of each measure. -/
theorem updates?_onAudioMetadata (s : Presence) (k : Measure) (f : AudioMetadataFrame) :
    let updates := k.pick (s.onAttendeeStates f.attendeeStates).2
    (s.onAudioMetadata f).2.filterMap k.updates? =
      if updates.isEmpty then [] else [updates] := by
  rw [onAudioMetadata]
  obtain ⟨t, volumes, strengths⟩ := s.onAttendeeStates f.attendeeStates
  cases k with
  | volume =>
    rw [List.filterMap_append]
    cases volumes <;> cases strengths <;> rfl
  | strength => cases volumes <;> cases strengths <;> rfl

/-- A frame tells at most one event of each measure, with the readings in it that are news. -/
theorem Remembers.take (h : s.Remembers k reports) (owns : s.Owns past) (frame : AudioFrame) :
    let updates :=
      (told (k.isNewsAt s.precision) reports (k.reportsOf past frame)).map (k.update s.precision)
    (s.take frame).1.Remembers k (reports ++ k.reportsOf past frame) ∧
      (s.take frame).2.filterMap k.updates? = if updates.isEmpty then [] else [updates] := by
  cases frame with
  | streams f =>
    obtain ⟨_, _, _, _, hnext⟩ := onStreams_eq s f.streams
    refine ⟨?_, updates?_onStreams s k f.streams⟩
    show (s.onStreams f.streams).1.Remembers k (reports ++ [])
    rw [hnext, List.append_nil]
    cases k <;> exact h
  | metadata f =>
    obtain ⟨hstep, htold⟩ := h.onAttendeeStates owns f.attendeeStates
    exact ⟨hstep, htold ▸ updates?_onAudioMetadata s k f⟩

theorem Remembers.takeAll (h : s.Remembers k reports) (owns : s.Owns past)
    (frames : List AudioFrame) :
    (s.takeAll frames).1.Remembers k (reports ++ k.reports past frames) := by
  induction frames generalizing s past reports with
  | nil => simpa [Presence.takeAll, Measure.reports] using h
  | cons frame rest ih =>
    rw [Measure.reports, ← List.append_assoc]
    exact ih (h.take owns frame).1 (owns.take frame)

theorem remembers_fresh (p : Precision) (k : Measure) : (fresh p).Remembers k [] := by
  cases k <;> exact fun _ => rfl

/-- **Levels are told when they change on their scale.** Whatever frames a new presence has taken
in, calculating exactly: from the next frame it tells at most one event of each measure, with an
update for each of its readings that is the first of its attendee or differs on the scale from the
one before, in their order, and with no others; each is told for the owner of its stream, with the
level of the reading, which lies between 0 and 1. A reading on a stream without an owner makes no
difference. -/
theorem tells_levels (frames : List AudioFrame) (k : Measure) :
    let s := ((fresh .exact).takeAll frames).1
    let past := newsIn frames
    (∀ frame,
      let updates : List LevelUpdate :=
        (told k.isNews (k.reports [] frames) (k.reportsOf past frame)).map fun r =>
          { attendee := r.who, level := k.level r.value }
      (s.take frame).2.filterMap k.updates? = (if updates.isEmpty then [] else [updates]) ∧
        ∀ u ∈ updates, 0 ≤ u.level ∧ u.level ≤ 1) ∧
    ∀ before state after,
      (∀ stream, state.audioStreamId = some stream → owner past stream = none) →
      s.take (.metadata ⟨before ++ state :: after⟩) = s.take (.metadata ⟨before ++ after⟩) := by
  intro s past
  have owns : s.Owns past := (owns_fresh .exact).takeAll frames
  have remembers : s.Remembers k (k.reports [] frames) :=
    (remembers_fresh .exact k).takeAll (owns_fresh .exact) frames
  have hprecision : s.precision = .exact := takeAll_precision (fresh .exact) frames
  have hnews : k.isNewsAt .exact = k.isNews := by
    funext before reading
    exact k.isNews_exact before reading
  have hupdate : k.update .exact = fun r => { attendee := r.who, level := k.level r.value } := by
    funext r
    rw [Measure.update, k.calculated_exact]
  refine ⟨fun frame => ⟨?_, ?_⟩, ?_⟩
  · have htold := (remembers.take owns frame).2
    rw [hprecision, hnews, hupdate] at htold
    exact htold
  · intro u hu
    obtain ⟨r, -, rfl⟩ := List.mem_map.mp hu
    exact k.level_mem r.value
  · intro before state after unowned
    simp only [Presence.take, onAudioMetadata, onAttendeeStates_of_unowned owns unowned]

/-- A volume beyond the scale is followed by the end of the scale, which is no news, and by a loud
one on the second stream of the attendee, which is; the stream in between has no owner. -/
theorem tells_levels_of_saturated :
    let info (stream : UInt32) : AudioStreamIdInfo :=
      { audioStreamId := some stream, attendeeId := some "a" }
    let sound (stream volume : UInt32) : AudioAttendeeState :=
      { audioStreamId := some stream, volume := some volume }
    let s := ((fresh .exact).takeAll [.streams ⟨[info 1, info 2]⟩, .metadata ⟨[sound 1 90]⟩]).1
    s.take (.metadata ⟨[sound 1 42, sound 3 14, sound 2 10]⟩) =
        s.take (.metadata ⟨[sound 1 42, sound 2 10]⟩) ∧
      (s.take (.metadata ⟨[sound 1 42, sound 2 10]⟩)).2.filterMap Measure.volume.updates? =
        [[{ attendee := ⟨"a", ""⟩, level := 1 }]] := by
  intro info sound s
  have htells := tells_levels [.streams ⟨[info 1, info 2]⟩, .metadata ⟨[sound 1 90]⟩] .volume
  refine ⟨htells.2 [sound 1 42] (sound 3 14) [sound 2 10] ?_, ?_⟩
  · rintro stream ⟨⟩
    decide
  · refine (htells.1 (.metadata ⟨[sound 1 42, sound 2 10]⟩)).1.trans ?_
    decide +kernel

end Presence

end Parley
