import Parley.Signaling.Presence

/-!
# `Parley/Proofs/Signaling/Reports.lean` — whom a report is about, and whether it is news

The service reports on audio streams. A stream belongs to the attendee for whom it was announced
last, unless it was removed since (`owner`): this is so whatever the service announces and removes,
in whatever order, and a presence knows it of every stream (`Owns.takeAll`). A report on a stream is
a report on its owner at that moment.

What was reported of an attendee last is remembered over all of its streams (`lastOf`), and whether
the next report is news depends on nothing else. `told` are the reports that are news.
-/

set_option autoImplicit false

namespace Parley

open Parley.Arith Parley.Wire

/-! ## Whose stream it is -/

/-- What a piece of news says of the owner of a stream, if anything: an announcement gives it one,
and a removal takes it away. -/
def Wire.AudioStreamIdInfo.assigns? (info : AudioStreamIdInfo) (stream : UInt32) :
    Option (Option Attendee) :=
  if info.audioStreamId = some stream then
    match info.attendeeId, info.muted with
    | some attendeeId, _ =>
      some (some { attendeeId, externalUserId := info.externalUserId.getD "" })
    | none, none => some none
    | none, some _ => none
  else none

/-- The attendee for whom a stream was announced last, unless the stream was removed since. -/
def owner (past : List AudioStreamIdInfo) (stream : UInt32) : Option Attendee :=
  (past.filterMap (·.assigns? stream)).getLast?.join

theorem owner_concat (past : List AudioStreamIdInfo) (info : AudioStreamIdInfo)
    (stream : UInt32) :
    owner (past ++ [info]) stream = (info.assigns? stream).getD (owner past stream) := by
  rw [owner, List.filterMap_append, List.getLast?_append]
  cases h : info.assigns? stream <;> simp [h, owner]

/-! ## Frames -/

/-- A frame that a presence takes in: news of the streams, or how their attendees sound. -/
inductive AudioFrame where
  | streams (f : AudioStreamIdInfoFrame)
  | metadata (f : AudioMetadataFrame)
  deriving DecidableEq

def AudioFrame.news : AudioFrame → List AudioStreamIdInfo
  | .streams f => f.streams
  | .metadata _ => []

/-- All news of the streams, in order. -/
def newsIn (frames : List AudioFrame) : List AudioStreamIdInfo := frames.flatMap AudioFrame.news

theorem newsIn_cons (frame : AudioFrame) (rest : List AudioFrame) :
    newsIn (frame :: rest) = frame.news ++ newsIn rest := List.flatMap_cons

namespace Presence

def take (s : Presence) : AudioFrame → Presence × List Event
  | .streams f => s.onStreamIdInfo f
  | .metadata f => s.onAudioMetadata f

/-- The presence after some frames, and all that was told meanwhile. -/
def takeAll (s : Presence) : List AudioFrame → Presence × List Event
  | [] => (s, [])
  | frame :: rest =>
    let (s, events) := s.take frame
    let (s, more) := takeAll s rest
    (s, events ++ more)

/-! ## A presence knows the owners -/

/-- What a presence knows of streams is who owns them. -/
structure Owns (s : Presence) (past : List AudioStreamIdInfo) : Prop where
  attendeeOf : ∀ stream, s.attendeeOf.get? stream = (owner past stream).map (·.attendeeId)
  externalIdOf : ∀ stream, s.externalIdOf.get? stream = (owner past stream).map (·.externalUserId)

variable {s : Presence} {past : List AudioStreamIdInfo} {info : AudioStreamIdInfo}
  {stream : UInt32}

theorem Owns.attendee_eq (h : s.Owns past) {who : Attendee}
    (howner : owner past stream = some who) :
    s.attendee stream who.attendeeId = who := by
  simp [attendee, h.externalIdOf, howner]

/-- News that say nothing of an owner leave all owners as they are. -/
theorem Owns.unassigned (h : s.Owns past) (hnone : ∀ stream, info.assigns? stream = none) :
    s.Owns (past ++ [info]) := by
  have hsame : ∀ stream, owner (past ++ [info]) stream = owner past stream := by
    intro stream
    rw [owner_concat, hnone]
    rfl
  exact ⟨fun stream => by rw [hsame, h.attendeeOf], fun stream => by rw [hsame, h.externalIdOf]⟩

theorem Owns.announce (h : s.Owns past) {id : String} (hstream : info.audioStreamId = some stream)
    (hid : info.attendeeId = some id) :
    (s.announce stream id (info.externalUserId.getD "")).1.Owns (past ++ [info]) := by
  have hassigns : ∀ other, info.assigns? other = if stream = other
      then some (some { attendeeId := id, externalUserId := info.externalUserId.getD "" })
      else none := by
    intro other
    simp [AudioStreamIdInfo.assigns?, hstream, hid]
  constructor <;>
  · intro other
    rw [owner_concat, hassigns]
    simp only [Presence.announce]
    by_cases hother : other = stream
    · subst hother
      simp
    · rw [Table.get?_insert_of_ne _ _ hother, if_neg (Ne.symm hother)]
      simp [h.attendeeOf, h.externalIdOf]

theorem Owns.remove (h : s.Owns past) (hstream : info.audioStreamId = some stream)
    (hid : info.attendeeId = none) (hmuted : info.muted = none) (dropped : Bool) :
    (s.remove stream dropped).1.Owns (past ++ [info]) := by
  have hassigns : ∀ other, info.assigns? other = if stream = other then some none else none := by
    intro other
    simp [AudioStreamIdInfo.assigns?, hstream, hid, hmuted]
  cases howner : owner past stream with
  | none =>
    -- nobody has the stream, and so it stays
    have hnothing : s.remove stream dropped = (s, []) := by
      simp [Presence.remove, h.attendeeOf, howner]
    have hsame : ∀ other, owner (past ++ [info]) other = owner past other := by
      intro other
      rw [owner_concat, hassigns]
      by_cases hother : stream = other
      · subst hother
        simp [howner]
      · simp [hother]
    rw [hnothing]
    exact ⟨fun other => by rw [hsame, h.attendeeOf], fun other => by rw [hsame, h.externalIdOf]⟩
  | some who =>
    have hget : s.attendeeOf.get? stream = some who.attendeeId := by
      rw [h.attendeeOf, howner]
      rfl
    constructor <;>
    · intro other
      rw [owner_concat, hassigns]
      simp only [Presence.remove, hget]
      by_cases hother : other = stream
      · subst hother
        simp
      · rw [Table.get?_erase_of_ne _ hother, if_neg (Ne.symm hother)]
        simp [h.attendeeOf, h.externalIdOf]

/-- A report on muting leaves the streams alone. -/
theorem reportMute_eq (s : Presence) (stream : UInt32) (muted : Bool) :
    ∃ table, (s.reportMute stream muted).1 = { s with muted := table } := by
  unfold reportMute
  split
  · exact ⟨s.muted, rfl⟩
  · exact ⟨_, rfl⟩

theorem Owns.reportMute (h : s.Owns past) (stream : UInt32) (muted : Bool) :
    (s.reportMute stream muted).1.Owns past := by
  obtain ⟨table, hnext⟩ := reportMute_eq s stream muted
  rw [hnext]
  exact ⟨h.attendeeOf, h.externalIdOf⟩

theorem Owns.onStreamInfo (h : s.Owns past) (info : AudioStreamIdInfo) :
    (s.onStreamInfo info).1.Owns (past ++ [info]) := by
  cases hstream : info.audioStreamId with
  | none =>
    simp only [Presence.onStreamInfo, hstream]
    exact h.unassigned fun stream => by simp [AudioStreamIdInfo.assigns?, hstream]
  | some stream =>
    cases hid : info.attendeeId with
    | none =>
      cases hmuted : info.muted with
      | none =>
        simp only [Presence.onStreamInfo, hstream, hid, hmuted]
        exact h.remove hstream hid hmuted _
      | some muted =>
        simp only [Presence.onStreamInfo, hstream, hid, hmuted]
        refine (h.unassigned fun other => ?_).reportMute stream muted
        simp [AudioStreamIdInfo.assigns?, hid, hmuted]
    | some id =>
      cases hmuted : info.muted with
      | none =>
        simp only [Presence.onStreamInfo, hstream, hid, hmuted]
        exact h.announce hstream hid
      | some muted =>
        simp only [Presence.onStreamInfo, hstream, hid, hmuted]
        exact (h.announce hstream hid).reportMute stream muted

/-- How attendees sound changes nothing else that is known of them. -/
theorem onAttendeeState_eq (s : Presence) (state : AudioAttendeeState) :
    ∃ volumes strengths, (s.onAttendeeState state).1 = { s with volumes, strengths } := by
  unfold onAttendeeState
  split
  · exact ⟨_, _, rfl⟩
  · split
    · exact ⟨_, _, rfl⟩
    · cases state.volume <;> cases state.signalStrength <;> exact ⟨_, _, rfl⟩

theorem onAttendeeStates_eq (s : Presence) (states : List AudioAttendeeState) :
    ∃ volumes strengths, (s.onAttendeeStates states).1 = { s with volumes, strengths } := by
  induction states generalizing s with
  | nil => exact ⟨_, _, rfl⟩
  | cons state rest ih =>
    obtain ⟨_, _, hfirst⟩ := onAttendeeState_eq s state
    obtain ⟨volumes, strengths, hrest⟩ := ih (s.onAttendeeState state).1
    refine ⟨volumes, strengths, hrest.trans ?_⟩
    rw [hfirst]

theorem Owns.onAttendeeState (h : s.Owns past) (state : AudioAttendeeState) :
    (s.onAttendeeState state).1.Owns past := by
  obtain ⟨volumes, strengths, hnext⟩ := onAttendeeState_eq s state
  rw [hnext]
  exact ⟨h.attendeeOf, h.externalIdOf⟩

theorem Owns.onAttendeeStates (h : s.Owns past) (states : List AudioAttendeeState) :
    (s.onAttendeeStates states).1.Owns past := by
  obtain ⟨volumes, strengths, hnext⟩ := onAttendeeStates_eq s states
  rw [hnext]
  exact ⟨h.attendeeOf, h.externalIdOf⟩

theorem Owns.onStreams (h : s.Owns past) (infos : List AudioStreamIdInfo) :
    (s.onStreams infos).1.Owns (past ++ infos) := by
  induction infos generalizing s past with
  | nil => simpa [Presence.onStreams] using h
  | cons info rest ih =>
    rw [List.append_cons]
    exact ih (h.onStreamInfo info)

theorem Owns.take (h : s.Owns past) (frame : AudioFrame) :
    (s.take frame).1.Owns (past ++ frame.news) := by
  cases frame with
  | streams f => exact h.onStreams f.streams
  | metadata f =>
    show (s.onAttendeeStates f.attendeeStates).1.Owns (past ++ [])
    rw [List.append_nil]
    exact h.onAttendeeStates f.attendeeStates

/-- A presence from before the first frame, at some precision. -/
def fresh (p : Precision) : Presence := { precision := p }

theorem owns_fresh (p : Precision) : (fresh p).Owns [] := ⟨fun _ => rfl, fun _ => rfl⟩

theorem Owns.takeAll (h : s.Owns past) (frames : List AudioFrame) :
    (s.takeAll frames).1.Owns (past ++ newsIn frames) := by
  induction frames generalizing s past with
  | nil => simpa [newsIn, Presence.takeAll] using h
  | cons frame rest ih =>
    rw [newsIn_cons, ← List.append_assoc]
    exact ih (h.take frame)

end Presence

/-! ## Reports and news -/

/-- A report on an attendee. -/
structure Report (α : Type) where
  who : Attendee
  value : α
  deriving DecidableEq

section Reports

variable {α β : Type}

/-- What was reported of an attendee, in order. -/
def reportedOf (a : String) (reports : List (Report α)) : List α :=
  reports.filterMap fun r => if r.who.attendeeId = a then some r.value else none

/-- What was reported of an attendee last. -/
def lastOf (a : String) (past : List (Report α)) : Option α := (reportedOf a past).getLast?

/-- The reports that are news, after those before them. Whether one is depends on what was reported
of the same attendee last, if anything was, and on what it says itself. -/
def told (isNews : Option α → α → Bool) (past : List (Report α)) :
    List (Report α) → List (Report α)
  | [] => []
  | r :: rest =>
    (if isNews (lastOf r.who.attendeeId past) r.value then [r] else [])
      ++ told isNews (past ++ [r]) rest

theorem lastOf_concat (a : String) (past : List (Report α)) (r : Report α) :
    lastOf a (past ++ [r]) = if r.who.attendeeId = a then some r.value else lastOf a past := by
  rw [lastOf, reportedOf, List.filterMap_append, List.getLast?_append]
  by_cases h : r.who.attendeeId = a <;> simp [h, lastOf, reportedOf]

theorem told_append (isNews : Option α → α → Bool) (past reports more : List (Report α)) :
    told isNews past (reports ++ more) =
      told isNews past reports ++ told isNews (past ++ reports) more := by
  induction reports generalizing past with
  | nil => simp [told]
  | cons r rest ih => simp [told, ih]

/-- A table that remembers what was reported of each attendee last goes on doing so. -/
theorem get?_insert_report {t : Table String β} {f : α → β} {past : List (Report α)}
    (h : ∀ a, t.get? a = (lastOf a past).map f) (r : Report α) (a : String) :
    (t.insert r.who.attendeeId (f r.value)).get? a = (lastOf a (past ++ [r])).map f := by
  rw [lastOf_concat]
  by_cases ha : r.who.attendeeId = a
  · subst ha
    simp
  · rw [Table.get?_insert_of_ne _ _ (Ne.symm ha), if_neg ha, h]

end Reports

end Parley
