import Parley.Proofs.Signaling.Attendance
import Parley.Proofs.Signaling.Levels

/-!
# `Parley/Proofs/Signaling/Naming.lean` — under which names attendees are told of

A presence keeps the two names of a stream's attendee in two tables, and where the second has no
entry an empty name would stand in for it. There is none such: whatever the service announces and
removes, the two tables have the same keys, as both know the owner of each stream and nothing else
(`Owns.mem_keys_iff`). An owner is the attendee for whom the stream was announced last
(`announcedLast_of_owner`), and so everything that is told of an attendee names it as that
announcement did (`names_as_announced`).
-/

set_option autoImplicit false

namespace Parley

open Parley.Arith Parley.Wire

/-! ## Announcements -/

/-- The attendee for whom a piece of news announces a stream. -/
def Wire.AudioStreamIdInfo.announces? (info : AudioStreamIdInfo) (stream : UInt32) :
    Option Attendee :=
  if info.audioStreamId = some stream then
    info.attendeeId.map ({ attendeeId := ·, externalUserId := info.externalUserId.getD "" })
  else none

/-- The attendee for whom a stream was announced last, be it removed since or not. -/
def announcedLast (past : List AudioStreamIdInfo) (stream : UInt32) : Option Attendee :=
  (past.filterMap (·.announces? stream)).getLast?

theorem announcedLast_concat (past : List AudioStreamIdInfo) (info : AudioStreamIdInfo)
    (stream : UInt32) :
    announcedLast (past ++ [info]) stream =
      (info.announces? stream).or (announcedLast past stream) := by
  rw [announcedLast, List.filterMap_append, List.getLast?_append]
  cases h : info.announces? stream <;> simp [h, announcedLast]

/-- Beside announcing a stream, news can only take its owner away. -/
theorem Wire.AudioStreamIdInfo.assigns?_cases (info : AudioStreamIdInfo) (stream : UInt32) :
    info.assigns? stream = (info.announces? stream).map some ∨
      info.announces? stream = none ∧ info.assigns? stream = some none := by
  unfold assigns? announces?
  split
  · cases info.attendeeId with
    | some id => exact .inl rfl
    | none =>
      cases info.muted with
      | none => exact .inr ⟨rfl, rfl⟩
      | some muted => exact .inl rfl
  · exact .inl rfl

/-- Who owns a stream is who it was announced for last. -/
theorem announcedLast_of_owner {past : List AudioStreamIdInfo} {stream : UInt32} {who : Attendee}
    (h : owner past stream = some who) : announcedLast past stream = some who := by
  induction past using List.reverseRecOn with
  | nil => cases h
  | append_singleton past info ih =>
    rw [owner_concat] at h
    rw [announcedLast_concat]
    rcases info.assigns?_cases stream with hassigns | ⟨-, hremoves⟩
    · rw [hassigns] at h
      cases hannounces : info.announces? stream with
      | none =>
        rw [hannounces] at h
        exact ih h
      | some next =>
        rw [hannounces] at h
        exact h
    · rw [hremoves] at h
      cases h

/-! ## Whom events name -/

/-- The attendees that an event is about. -/
def Event.named : Event → List Attendee
  | .attendeeJoined who | .attendeeLeft who | .attendeeDropped who | .attendeeMuted who
  | .attendeeUnmuted who => [who]
  | .volumes updates | .signalStrengths updates => updates.map (·.attendee)
  | _ => []

/-- Whether those named on account of a stream are the attendee for whom it was announced last. -/
def NamesLast (past : List AudioStreamIdInfo) (stream? : Option UInt32) (named : List Attendee) :
    Prop :=
  ∀ who ∈ named, ∃ stream, stream? = some stream ∧ announcedLast past stream = some who

theorem namesLast_nil (past : List AudioStreamIdInfo) (stream? : Option UInt32) :
    NamesLast past stream? [] := nofun

theorem NamesLast.append {past : List AudioStreamIdInfo} {stream? : Option UInt32}
    {named more : List Attendee} (h : NamesLast past stream? named)
    (hmore : NamesLast past stream? more) : NamesLast past stream? (named ++ more) := by
  intro who hwho
  rcases List.mem_append.mp hwho with hwho | hwho
  · exact h who hwho
  · exact hmore who hwho

namespace Presence

variable {s : Presence} {past : List AudioStreamIdInfo} {stream : UInt32}

/-- The two tables have the same keys. -/
theorem Owns.mem_keys_iff (h : s.Owns past) (stream : UInt32) :
    stream ∈ s.attendeeOf.keys ↔ stream ∈ s.externalIdOf.keys := by
  rw [← Table.contains_iff, ← Table.contains_iff, Table.contains, Table.contains, h.attendeeOf,
    h.externalIdOf, Option.isSome_map, Option.isSome_map]

/-- An attendee that is looked up by a stream is the owner of the stream, under both names. -/
theorem Owns.attendee_spec (h : s.Owns past) {id : String}
    (hget : s.attendeeOf.get? stream = some id) :
    announcedLast past stream = some (s.attendee stream id) := by
  rw [h.attendeeOf] at hget
  obtain ⟨who, howner, rfl⟩ := Option.map_eq_some_iff.mp hget
  rw [h.attendee_eq howner]
  exact announcedLast_of_owner howner

theorem Owns.namesLast_attendee (h : s.Owns past) {id : String}
    (hget : s.attendeeOf.get? stream = some id) :
    NamesLast past (some stream) [s.attendee stream id] :=
  List.forall_mem_singleton.mpr ⟨stream, rfl, h.attendee_spec hget⟩

theorem Owns.names_reportMute (h : s.Owns past) (muted : Bool) :
    NamesLast past (some stream) ((s.reportMute stream muted).2.flatMap Event.named) := by
  unfold Presence.reportMute
  split
  · exact namesLast_nil _ _
  · rename_i id hget
    dsimp only
    split
    · exact namesLast_nil _ _
    · split <;> exact h.namesLast_attendee hget

theorem Owns.names_remove (h : s.Owns past) (dropped : Bool) :
    NamesLast past (some stream) ((s.remove stream dropped).2.flatMap Event.named) := by
  unfold Presence.remove
  split
  · exact namesLast_nil _ _
  · rename_i id hget
    dsimp only
    split
    · exact namesLast_nil _ _
    · split <;> exact h.namesLast_attendee hget

theorem names_announce {info : AudioStreamIdInfo} {id : String}
    (hstream : info.audioStreamId = some stream) (hid : info.attendeeId = some id) :
    NamesLast (past ++ [info]) (some stream)
      ((s.announce stream id (info.externalUserId.getD "")).2.flatMap Event.named) := by
  have hlast : announcedLast (past ++ [info]) stream =
      some { attendeeId := id, externalUserId := info.externalUserId.getD "" } := by
    rw [announcedLast_concat]
    simp [AudioStreamIdInfo.announces?, hstream, hid]
  simp only [announce]
  split
  · exact namesLast_nil _ _
  · exact List.forall_mem_singleton.mpr ⟨stream, rfl, hlast⟩

/-- A piece of news has everyone named as its stream was announced last. -/
theorem Owns.names_onStreamInfo (h : s.Owns past) (info : AudioStreamIdInfo) :
    NamesLast (past ++ [info]) info.audioStreamId
      ((s.onStreamInfo info).2.flatMap Event.named) := by
  cases hstream : info.audioStreamId with
  | none =>
    simp only [Presence.onStreamInfo, hstream]
    exact namesLast_nil _ _
  | some stream =>
    cases hid : info.attendeeId with
    | none =>
      -- nothing is announced, so that it was announced last before
      have hlast : ∀ other, announcedLast (past ++ [info]) other = announcedLast past other := by
        intro other
        rw [announcedLast_concat]
        simp [AudioStreamIdInfo.announces?, hid]
      unfold NamesLast
      simp only [hlast]
      cases hmuted : info.muted with
      | none =>
        simp only [Presence.onStreamInfo, hstream, hid, hmuted]
        exact h.names_remove _
      | some muted =>
        simp only [Presence.onStreamInfo, hstream, hid, hmuted]
        exact h.names_reportMute muted
    | some id =>
      cases hmuted : info.muted with
      | none =>
        simp only [Presence.onStreamInfo, hstream, hid, hmuted]
        exact names_announce hstream hid
      | some muted =>
        simp only [Presence.onStreamInfo, hstream, hid, hmuted, List.flatMap_append]
        exact (names_announce hstream hid).append ((h.announce hstream hid).names_reportMute muted)

/-- So does the state of an attendee. -/
theorem Owns.names_onAttendeeState (h : s.Owns past) (k : Measure) (state : AudioAttendeeState) :
    NamesLast past state.audioStreamId ((k.pick (s.onAttendeeState state).2).map (·.attendee)) := by
  rw [(onAttendeeState_memory h k state).2]
  cases hreport : k.report? past state with
  | none => exact namesLast_nil _ _
  | some r =>
    simp only [Measure.report?, Option.bind_eq_bind, Option.bind_eq_some_iff] at hreport
    obtain ⟨stream, hstream, who, howner, reading, -, hr⟩ := hreport
    obtain rfl : ⟨who, reading⟩ = r := Option.some.inj hr
    rw [Option.elim_some]
    split
    · exact List.forall_mem_singleton.mpr ⟨stream, hstream, announcedLast_of_owner howner⟩
    · exact namesLast_nil _ _

/-! ## Runs -/

/-- The events of some news, apart from those of one piece in the middle. -/
theorem onStreams_middle (s : Presence) (before : List AudioStreamIdInfo)
    (info : AudioStreamIdInfo) (after : List AudioStreamIdInfo) :
    let here := (s.onStreams before).1
    (s.onStreams (before ++ info :: after)).2 =
      (s.onStreams before).2 ++ (here.onStreamInfo info).2 ++
        ((here.onStreamInfo info).1.onStreams after).2 := by
  intro here
  rw [onStreams_append, List.append_assoc]
  rfl

/-- The updates of some states, apart from those of one in the middle. -/
theorem onAttendeeStates_middle (s : Presence) (k : Measure) (before : List AudioAttendeeState)
    (state : AudioAttendeeState) (after : List AudioAttendeeState) :
    let here := (s.onAttendeeStates before).1
    k.pick (s.onAttendeeStates (before ++ state :: after)).2 =
      k.pick (s.onAttendeeStates before).2 ++ k.pick (here.onAttendeeState state).2 ++
        k.pick ((here.onAttendeeState state).1.onAttendeeStates after).2 := by
  intro here
  rw [onAttendeeStates_append, List.append_assoc, ← Measure.pick_append, ← Measure.pick_append]
  rfl

/-- **Attendees are told of as they were announced.** Whatever frames a new presence has taken in,
the two tables of names have the same keys. Whatever frame comes next, all that a piece of news in
it tells, be it that someone joins or leaves, or is muted or not, names the attendee for whom the
stream of this piece was announced last, by both names; and so do all updates that the state of an
attendee in it brings. These parts are all that a frame tells: the events of a frame of news are
those of its pieces, in order, and a metadata frame tells at most one event of each measure, with
the updates of its states, in order. -/
theorem names_as_announced (p : Precision) (frames : List AudioFrame) :
    let s := ((fresh p).takeAll frames).1
    let past := newsIn frames
    (∀ stream, stream ∈ s.attendeeOf.keys ↔ stream ∈ s.externalIdOf.keys) ∧
    (∀ before info after,
      let here := (s.onStreams before).1
      let events := (here.onStreamInfo info).2
      NamesLast (past ++ before ++ [info]) info.audioStreamId (events.flatMap Event.named) ∧
      (s.take (.streams ⟨before ++ info :: after⟩)).2 =
        (s.onStreams before).2 ++ events ++ ((here.onStreamInfo info).1.onStreams after).2) ∧
    ∀ (k : Measure) before state after,
      let here := (s.onAttendeeStates before).1
      let updates := k.pick (here.onAttendeeState state).2
      let all := k.pick (s.onAttendeeStates before).2 ++ updates ++
        k.pick ((here.onAttendeeState state).1.onAttendeeStates after).2
      NamesLast past state.audioStreamId (updates.map (·.attendee)) ∧
      (s.take (.metadata ⟨before ++ state :: after⟩)).2.filterMap k.updates? =
        if all.isEmpty then [] else [all] := by
  intro s past
  have owns : s.Owns past := (owns_fresh p).takeAll frames
  refine ⟨owns.mem_keys_iff, fun before info after => ⟨?_, ?_⟩,
    fun k before state after => ⟨?_, ?_⟩⟩
  · exact (owns.onStreams before).names_onStreamInfo info
  · exact onStreams_middle s before info after
  · exact (owns.onAttendeeStates before).names_onAttendeeState k state
  · rw [← onAttendeeStates_middle]
    exact updates?_onAudioMetadata s k _

/-- A stream is announced for another attendee, removed, and announced without an external name. -/
example :
    let info (id external : Option String) (muted : Option Bool) : AudioStreamIdInfo :=
      { audioStreamId := some 1, attendeeId := id, externalUserId := external, muted }
    let news := [info (some "a") (some "A") none, info (some "b") (some "B") (some true),
      info none none none, info (some "c") none (some true)]
    ((fresh .single).take (.streams ⟨news⟩)).2.flatMap Event.named =
      [⟨"a", "A"⟩, ⟨"b", "B"⟩, ⟨"b", "B"⟩, ⟨"b", "B"⟩, ⟨"c", ""⟩, ⟨"c", ""⟩] := by
  decide

end Presence

end Parley
