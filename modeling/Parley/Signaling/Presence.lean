import Parley.Arith.Precision
import Parley.Signaling.Event
import Parley.Table

/-!
# `Parley/Signaling/Presence.lean` — who is there, who is muted, who is heard

The service reports on audio streams; the program wants to know about attendees. A stream is
announced for an attendee and later removed, and an attendee who comes back is announced under a
higher stream number, perhaps before the old stream is removed. Reports on muting, volume and signal
strength name a stream and are passed on for its attendee, but only when they change something.

The identifier and the external identifier of a stream's attendee are kept in two tables.
-/

set_option autoImplicit false

namespace Parley

open Parley.Arith Parley.Wire

/-- What is known of the audio streams and their attendees. -/
structure Presence where
  /-- What levels are calculated at. -/
  precision : Precision := .single
  attendeeOf : Table UInt32 String := {}
  externalIdOf : Table UInt32 String := {}
  /-- The stream last announced for an attendee. -/
  streamOf : Table String UInt32 := {}
  muted : Table String Bool := {}
  volumes : Table String Rat := {}
  strengths : Table String Rat := {}
  deriving DecidableEq

namespace Presence

/-! ## Levels -/

/-- A number that is at least 0 and at most 1, the nearest one if need be. -/
def clamp (q : Rat) : Rat := if q < 0 then 0 else if 1 < q then 1 else q

/-- A volume, reported as decibels below full scale, on a scale from −42 to −14 decibels. -/
def volumeLevel (p : Precision) (volume : UInt32) : Rat :=
  let decibels := -p.round volume.toNat
  clamp (p.round (1 - p.round (p.round (decibels + 14) / (-28))))

/-- A signal strength, on a scale from 0 to 2. -/
def strengthLevel (p : Precision) (strength : UInt32) : Rat :=
  clamp (p.round (p.round strength.toNat / 2))

/-- Levels that differ by less count as the same. -/
def tolerance (p : Precision) : Rat := p.round (1 / 1000000)

/-- Whether a level is news after the one before. -/
def isNews (p : Precision) (before : Option Rat) (level : Rat) : Bool :=
  match before with
  | none => true
  | some old => tolerance p ≤ (p.round (old - level)).abs

/-! ## Streams -/

def attendee (s : Presence) (stream : UInt32) (attendeeId : String) : Attendee :=
  { attendeeId, externalUserId := (s.externalIdOf.get? stream).getD "" }

def announce (s : Presence) (stream : UInt32) (attendeeId externalUserId : String) :
    Presence × List Event :=
  ({ s with
      streamOf := s.streamOf.insert attendeeId stream
      attendeeOf := s.attendeeOf.insert stream attendeeId
      externalIdOf := s.externalIdOf.insert stream externalUserId },
    if s.streamOf.contains attendeeId then []
    else [.attendeeJoined { attendeeId, externalUserId }])

/-- Takes note of a mute report. That someone new is not muted is no news. -/
def reportMute (s : Presence) (stream : UInt32) (muted : Bool) : Presence × List Event :=
  match s.attendeeOf.get? stream with
  | none => (s, [])
  | some attendeeId =>
    let before := s.muted.get? attendeeId
    let who := s.attendee stream attendeeId
    ({ s with muted := s.muted.insert attendeeId muted },
      if before.getD false = muted then []
      else if muted then [.attendeeMuted who] else [.attendeeUnmuted who])

/-- Takes note that a stream is gone. Its attendee is gone too, unless a later stream is left. -/
def remove (s : Presence) (stream : UInt32) (dropped : Bool) : Presence × List Event :=
  match s.attendeeOf.get? stream with
  | none => (s, [])
  | some attendeeId =>
    let who := s.attendee stream attendeeId
    let left : Presence :=
      { s with
        attendeeOf := s.attendeeOf.erase stream
        externalIdOf := s.externalIdOf.erase stream
        streamOf :=
          if s.streamOf.get? attendeeId = some stream then s.streamOf.erase attendeeId
          else s.streamOf }
    let rejoined := left.attendeeOf.entries.any fun e => e.2 == attendeeId && stream < e.1
    (left,
      if rejoined then []
      else if dropped then [.attendeeDropped who] else [.attendeeLeft who])

/-- Takes in the news of one stream: an announcement, then a mute report. News without either says
that the stream is gone. -/
def onStreamInfo (s : Presence) (info : AudioStreamIdInfo) : Presence × List Event :=
  match info.audioStreamId with
  | none => (s, [])
  | some stream =>
    match info.attendeeId, info.muted with
    | none, none => s.remove stream (info.dropped.getD false)
    | some attendeeId, none => s.announce stream attendeeId (info.externalUserId.getD "")
    | none, some muted => s.reportMute stream muted
    | some attendeeId, some muted =>
      let (s, announced) := s.announce stream attendeeId (info.externalUserId.getD "")
      let (s, reported) := s.reportMute stream muted
      (s, announced ++ reported)

def onStreams (s : Presence) : List AudioStreamIdInfo → Presence × List Event
  | [] => (s, [])
  | info :: rest =>
    let (s, events) := s.onStreamInfo info
    let (s, more) := onStreams s rest
    (s, events ++ more)

def onStreamIdInfo (s : Presence) (f : AudioStreamIdInfoFrame) : Presence × List Event :=
  s.onStreams f.streams

/-! ## How attendees sound -/

def reportVolume (s : Presence) (stream : UInt32) (attendeeId : String) (volume : UInt32) :
    Presence × List LevelUpdate :=
  let level := volumeLevel s.precision volume
  ({ s with volumes := s.volumes.insert attendeeId level },
    if isNews s.precision (s.volumes.get? attendeeId) level then
      [{ attendee := s.attendee stream attendeeId, level }]
    else [])

def reportStrength (s : Presence) (stream : UInt32) (attendeeId : String) (strength : UInt32) :
    Presence × List LevelUpdate :=
  let level := strengthLevel s.precision strength
  ({ s with strengths := s.strengths.insert attendeeId level },
    if isNews s.precision (s.strengths.get? attendeeId) level then
      [{ attendee := s.attendee stream attendeeId, level }]
    else [])

/-- Takes in how one attendee sounds; the volumes and the strengths that are news come out. -/
def onAttendeeState (s : Presence) (state : AudioAttendeeState) :
    Presence × List LevelUpdate × List LevelUpdate :=
  match state.audioStreamId with
  | none => (s, [], [])
  | some stream =>
    match s.attendeeOf.get? stream with
    | none => (s, [], [])
    | some attendeeId =>
      let (s, volumes) := match state.volume with
        | none => (s, [])
        | some volume => s.reportVolume stream attendeeId volume
      let (s, strengths) := match state.signalStrength with
        | none => (s, [])
        | some strength => s.reportStrength stream attendeeId strength
      (s, volumes, strengths)

def onAttendeeStates (s : Presence) :
    List AudioAttendeeState → Presence × List LevelUpdate × List LevelUpdate
  | [] => (s, [], [])
  | state :: rest =>
    let (s, volumes, strengths) := s.onAttendeeState state
    let (s, moreVolumes, moreStrengths) := onAttendeeStates s rest
    (s, volumes ++ moreVolumes, strengths ++ moreStrengths)

/-- Takes a metadata frame in: at most one event of each kind comes out. -/
def onAudioMetadata (s : Presence) (f : AudioMetadataFrame) : Presence × List Event :=
  let (s, volumes, strengths) := s.onAttendeeStates f.attendeeStates
  (s,
    (if volumes.isEmpty then [] else [.volumes volumes])
      ++ (if strengths.isEmpty then [] else [.signalStrengths strengths]))

end Presence

end Parley
