import Mathlib.Data.List.Induction
import Parley.Signaling.Presence

/-!
# `Parley/Proofs/Signaling/Attendance.lean` — who is said to come and go

What the service says of an audio stream is a `Notice`: the stream is announced for an attendee, or
it is removed. From the notices so far follow the streams that an attendee has (`live`), and the
stream announced last for it, if it still has that one (`latest`). An attendee is said to join when
it is announced without a latest stream, and to leave when the greatest of its streams is removed,
and at no other time (`attendance_onFrames`).

So joining and leaving alternate exactly if these two happen in turn. They do when an attendee's
streams are removed oldest first, as when one that comes back is announced under a new stream before
the old one is removed; but if the newer of two streams is removed first, the attendee leaves twice.
-/

set_option autoImplicit false

namespace Parley

open Parley.Wire

/-- What the news of a stream say about whose stream it is. -/
inductive Notice where
  | announced (stream : UInt32) (attendeeId : String)
  | removed (stream : UInt32)
  | other
  deriving DecidableEq

/-- What the news of a stream say. They remove it if they name no attendee and no mute state. -/
def Notice.of (info : AudioStreamIdInfo) : Notice :=
  match info.audioStreamId, info.attendeeId, info.muted with
  | some stream, some attendeeId, _ => .announced stream attendeeId
  | some stream, none, none => .removed stream
  | _, _, _ => .other

/-! ## What follows from the notices -/

section History

variable (a : String)

/-- The streams of an attendee after one more notice. -/
def liveAfter (streams : List UInt32) : Notice → List UInt32
  | .announced stream b => if b = a then stream :: streams else streams
  | .removed stream => streams.filter (· ≠ stream)
  | .other => streams

/-- The streams of an attendee: those announced for it and not removed since. -/
def live (past : List Notice) : List UInt32 := past.foldl (liveAfter a) []

/-- The stream announced last for an attendee after one more notice, if it still has that one. -/
def latestAfter (latest : Option UInt32) : Notice → Option UInt32
  | .announced stream b => if b = a then some stream else latest
  | .removed stream => if latest = some stream then none else latest
  | .other => latest

/-- The stream announced last for an attendee, unless it is removed since. -/
def latest (past : List Notice) : Option UInt32 := past.foldl (latestAfter a) none

def isGreatest (past : List Notice) (stream : UInt32) : Bool :=
  (live a past).contains stream && (live a past).all (· ≤ stream)

/-- Whether an attendee comes (`true`) or goes (`false`) with a notice: it comes when it is
announced without a latest stream, and goes when the greatest of its streams is removed. -/
def turn (past : List Notice) : Notice → List Bool
  | .announced _ b => if b = a ∧ latest a past = none then [true] else []
  | .removed stream => if isGreatest a past stream then [false] else []
  | .other => []

/-- How an attendee comes and goes, one notice after the other. -/
def turns (past : List Notice) : List Notice → List Bool
  | [] => []
  | n :: rest => turn a past n ++ turns (past ++ [n]) rest

theorem isGreatest_iff (past : List Notice) (stream : UInt32) :
    isGreatest a past stream = true ↔
      stream ∈ live a past ∧ ∀ other ∈ live a past, other ≤ stream := by
  simp [isGreatest]

theorem live_concat (past : List Notice) (n : Notice) :
    live a (past ++ [n]) = liveAfter a (live a past) n := by
  simp [live]

theorem latest_concat (past : List Notice) (n : Notice) :
    latest a (past ++ [n]) = latestAfter a (latest a past) n := by
  simp [latest]

theorem mem_live_of_latest (past : List Notice) :
    ∀ stream, latest a past = some stream → stream ∈ live a past := by
  induction past using List.reverseRecOn with
  | nil => simp [latest]
  | append_singleton past n ih =>
    intro stream h
    rw [latest_concat] at h
    rw [live_concat]
    cases n with
    | announced s b =>
      by_cases hb : b = a
      · obtain rfl : s = stream := by simpa [latestAfter, hb] using h
        simp [liveAfter, hb]
      · simpa [liveAfter, hb] using ih stream (by simpa [latestAfter, hb] using h)
    | removed s =>
      by_cases hs : latest a past = some s
      · simp [latestAfter, hs] at h
      · rw [latestAfter, if_neg hs] at h
        have hne : stream ≠ s := fun heq => hs (heq ▸ h)
        simpa [liveAfter, hne] using ih stream h
    | other => exact ih stream h

theorem announced_of_mem_live (past : List Notice) :
    ∀ stream ∈ live a past, .announced stream a ∈ past := by
  induction past using List.reverseRecOn with
  | nil => simp [live]
  | append_singleton past n ih =>
    intro stream h
    rw [live_concat] at h
    refine List.mem_append.mpr ?_
    cases n with
    | announced s b =>
      by_cases hb : b = a
      · simp only [liveAfter, hb, if_true] at h
        rcases List.mem_cons.mp h with rfl | h
        · exact .inr (by simp [hb])
        · exact .inl (ih stream h)
      · exact .inl (ih stream (by simpa [liveAfter, hb] using h))
    | removed s => exact .inl (ih stream (List.mem_filter.mp h).1)
    | other => exact .inl (ih stream h)

end History

/-! ## What is reported -/

/-- How an attendee is said to come (`true`) and go (`false`). -/
def attendance (a : String) (events : List Event) : List Bool :=
  events.filterMap fun
    | .attendeeJoined who => if who.attendeeId = a then some true else none
    | .attendeeLeft who | .attendeeDropped who => if who.attendeeId = a then some false else none
    | _ => none

@[simp] theorem attendance_append (a : String) (events more : List Event) :
    attendance a (events ++ more) = attendance a events ++ attendance a more :=
  List.filterMap_append ..

/-- No stream is announced for two attendees. -/
def Single (notices : List Notice) : Prop :=
  ∀ stream a b, .announced stream a ∈ notices → .announced stream b ∈ notices → a = b

namespace Presence

theorem reportMute_attendeeOf (s : Presence) (stream : UInt32) (muted : Bool) :
    (s.reportMute stream muted).1.attendeeOf = s.attendeeOf ∧
      (s.reportMute stream muted).1.streamOf = s.streamOf ∧
      ∀ a, attendance a (s.reportMute stream muted).2 = [] := by
  unfold reportMute
  split
  · exact ⟨rfl, rfl, fun _ => rfl⟩
  · refine ⟨rfl, rfl, fun a => ?_⟩
    dsimp only
    repeat' split
    all_goals rfl

theorem attendance_announce (s : Presence) (stream : UInt32) (b external a : String) :
    attendance a (s.announce stream b external).2 =
      if b = a ∧ s.streamOf.get? a = none then [true] else [] := by
  by_cases hb : b = a
  · subst hb
    cases hget : s.streamOf.get? b <;> simp [announce, attendance, Table.contains, hget]
  · rw [if_neg (fun h => hb h.1)]
    simp only [announce]
    split <;> simp [attendance, hb]

theorem onStreamInfo_of_announced (s : Presence) {info : AudioStreamIdInfo} {stream : UInt32}
    {b : String} (h : Notice.of info = .announced stream b) :
    (s.onStreamInfo info).1.attendeeOf = s.attendeeOf.insert stream b ∧
      (s.onStreamInfo info).1.streamOf = s.streamOf.insert b stream ∧
      ∀ a, attendance a (s.onStreamInfo info).2 =
        if b = a ∧ s.streamOf.get? a = none then [true] else [] := by
  unfold Notice.of at h
  split at h
  · rename_i hstream hattendee
    obtain ⟨hs, hb⟩ := Notice.announced.inj h
    rw [hs] at hstream
    rw [hb] at hattendee
    simp only [onStreamInfo, hstream, hattendee]
    cases hmuted : info.muted with
    | none => exact ⟨rfl, rfl, attendance_announce s stream b _⟩
    | some muted =>
      obtain ⟨hattendeeOf, hstreamOf, hnone⟩ :=
        (s.announce stream b (info.externalUserId.getD "")).1.reportMute_attendeeOf stream muted
      refine ⟨hattendeeOf, hstreamOf, fun a => ?_⟩
      rw [attendance_append, hnone, List.append_nil]
      exact attendance_announce s stream b _ a
  · simp at h
  · simp at h

theorem onStreamInfo_of_removed (s : Presence) {info : AudioStreamIdInfo} {stream : UInt32}
    (h : Notice.of info = .removed stream) :
    s.onStreamInfo info = s.remove stream (info.dropped.getD false) := by
  unfold Notice.of at h
  split at h
  · simp at h
  · rename_i hstream hattendee hmuted
    obtain rfl := Notice.removed.inj h
    simp only [onStreamInfo, hstream, hattendee, hmuted]
  · simp at h

theorem onStreamInfo_of_other (s : Presence) {info : AudioStreamIdInfo}
    (h : Notice.of info = .other) :
    (s.onStreamInfo info).1.attendeeOf = s.attendeeOf ∧
      (s.onStreamInfo info).1.streamOf = s.streamOf ∧
      ∀ a, attendance a (s.onStreamInfo info).2 = [] := by
  cases hstream : info.audioStreamId with
  | none =>
    have hnothing : s.onStreamInfo info = (s, []) := by simp [onStreamInfo, hstream]
    rw [hnothing]
    exact ⟨rfl, rfl, fun _ => rfl⟩
  | some stream =>
    cases hattendee : info.attendeeId with
    | some a => simp [Notice.of, hstream, hattendee] at h
    | none =>
      cases hmuted : info.muted with
      | none => simp [Notice.of, hstream, hattendee, hmuted] at h
      | some muted =>
        simp only [onStreamInfo, hstream, hattendee, hmuted]
        exact s.reportMute_attendeeOf stream muted

/-- What a presence knows of streams and attendees is what follows from the notices so far. -/
structure Follows (s : Presence) (past : List Notice) : Prop where
  unique : s.attendeeOf.Unique
  attendeeOf : ∀ stream a, s.attendeeOf.get? stream = some a ↔ stream ∈ live a past
  streamOf : ∀ a, s.streamOf.get? a = latest a past

variable {s : Presence} {past : List Notice} {info : AudioStreamIdInfo}

theorem follows_announced (h : s.Follows past) {stream : UInt32} {b : String}
    (single : Single (past ++ [.announced stream b]))
    (hnotice : Notice.of info = .announced stream b) :
    (s.onStreamInfo info).1.Follows (past ++ [.announced stream b]) ∧
      ∀ a, attendance a (s.onStreamInfo info).2 = turn a past (.announced stream b) := by
  obtain ⟨hattendeeOf, hstreamOf, hevents⟩ := s.onStreamInfo_of_announced hnotice
  refine ⟨⟨?unique, ?attendeeOf, ?streamOf⟩, fun a => ?events⟩
  case unique =>
    rw [hattendeeOf]
    exact h.unique.insert stream b
  case attendeeOf =>
    intro other a
    rw [hattendeeOf, live_concat]
    by_cases ho : other = stream
    · subst ho
      rw [Table.get?_insert_self]
      by_cases hb : b = a
      · simp [liveAfter, hb]
      · -- another attendee's stream is not announced for this one
        have hnot : other ∉ live a past := fun hmem => hb (single other b a (by simp)
          (List.mem_append_left _ (announced_of_mem_live a past other hmem)))
        simp [liveAfter, hb, hnot]
    · rw [Table.get?_insert_of_ne _ _ ho, h.attendeeOf]
      by_cases hb : b = a <;> simp [liveAfter, hb, ho]
  case streamOf =>
    intro a
    rw [hstreamOf, latest_concat]
    by_cases hb : a = b
    · subst hb
      simp [latestAfter]
    · rw [Table.get?_insert_of_ne _ _ hb, h.streamOf]
      simp [latestAfter, Ne.symm hb]
  case events =>
    rw [hevents, h.streamOf]
    rfl

theorem attendance_remove {stream : UInt32} {b : String} (dropped : Bool)
    (hget : s.attendeeOf.get? stream = some b) (a : String) :
    attendance a (s.remove stream dropped).2 =
      if b = a ∧
        ¬ ((s.attendeeOf.erase stream).entries.any fun e => e.2 == b && stream < e.1) = true
      then [false] else [] := by
  simp only [remove, hget]
  cases (s.attendeeOf.erase stream).entries.any fun e => e.2 == b && stream < e.1 with
  | true => simp [attendance]
  | false => cases dropped <;> by_cases hb : b = a <;> simp [attendance, attendee, hb]

theorem Follows.any_erase_iff (h : s.Follows past) (stream : UInt32) (b : String) :
    ((s.attendeeOf.erase stream).entries.any fun e => e.2 == b && stream < e.1) = true ↔
      ∃ other ∈ live b past, stream < other := by
  have hleft : ∀ other, stream < other →
      ((other, b) ∈ (s.attendeeOf.erase stream).entries ↔ other ∈ live b past) := by
    intro other hlt
    have hne : other ≠ stream := fun heq => UInt32.lt_irrefl stream (heq ▸ hlt)
    rw [Table.mem_entries_iff (h.unique.erase stream), Table.get?_erase_of_ne _ hne, h.attendeeOf]
  rw [List.any_eq_true]
  constructor
  · rintro ⟨⟨other, c⟩, hmem, hcond⟩
    obtain ⟨rfl, hlt⟩ : c = b ∧ stream < other := by simpa using hcond
    exact ⟨other, (hleft other hlt).mp hmem, hlt⟩
  · rintro ⟨other, hmem, hlt⟩
    exact ⟨(other, b), (hleft other hlt).mpr hmem, by simpa using hlt⟩

theorem follows_removed (h : s.Follows past) {stream : UInt32} (dropped : Bool) :
    (s.remove stream dropped).1.Follows (past ++ [.removed stream]) ∧
      ∀ a, attendance a (s.remove stream dropped).2 = turn a past (.removed stream) := by
  cases hget : s.attendeeOf.get? stream with
  | none =>
    -- nobody has the stream, so that its removal is no news
    have hnothing : s.remove stream dropped = (s, []) := by simp [remove, hget]
    have hnot : ∀ a, stream ∉ live a past := by
      intro a hmem
      simp [(h.attendeeOf stream a).mpr hmem] at hget
    rw [hnothing]
    refine ⟨⟨h.unique, fun other a => ?attendeeOf, fun a => ?streamOf⟩, fun a => ?events⟩
    case attendeeOf =>
      have hne : other ∈ live a past → other ≠ stream := fun hmem heq => hnot a (heq ▸ hmem)
      rw [h.attendeeOf, live_concat]
      simpa [liveAfter] using hne
    case streamOf =>
      have hne : latest a past ≠ some stream := fun heq => hnot a (mem_live_of_latest a past _ heq)
      rw [h.streamOf, latest_concat, latestAfter, if_neg hne]
    case events =>
      rw [turn, if_neg fun hgreatest => hnot a ((isGreatest_iff a past stream).mp hgreatest).1]
      rfl
  | some b =>
    have hown : ∀ a, stream ∈ live a past ↔ b = a := by
      intro a
      rw [← h.attendeeOf, hget]
      simp
    refine ⟨⟨?unique, fun other a => ?attendeeOf, fun a => ?streamOf⟩, fun a => ?events⟩
    case unique =>
      simp only [remove, hget]
      exact h.unique.erase stream
    case attendeeOf =>
      simp only [remove, hget]
      rw [live_concat]
      by_cases ho : other = stream
      · simp [ho, liveAfter]
      · rw [Table.get?_erase_of_ne _ ho, h.attendeeOf]
        simp [liveAfter, ho]
    case streamOf =>
      simp only [remove, hget]
      rw [latest_concat, latestAfter, h.streamOf]
      by_cases hb : b = a
      · subst hb
        by_cases hl : latest b past = some stream
        · simp [hl]
        · simp [hl, h.streamOf]
      · have hne : latest a past ≠ some stream := fun heq =>
          hb ((hown a).mp (mem_live_of_latest a past _ heq))
        rw [if_neg hne]
        split
        · rw [Table.get?_erase_of_ne _ (Ne.symm hb), h.streamOf]
        · exact h.streamOf a
    case events =>
      -- no later stream is left exactly if this one was the greatest
      rw [attendance_remove dropped hget, turn]
      refine if_congr ?_ rfl rfl
      rw [isGreatest_iff, hown]
      refine and_congr_right fun hb => ?_
      subst hb
      rw [h.any_erase_iff]
      constructor
      · intro hnone other hmem
        exact UInt32.not_lt.mp fun hlt => hnone ⟨other, hmem, hlt⟩
      · rintro hall ⟨other, hmem, hlt⟩
        exact UInt32.not_lt.mpr (hall other hmem) hlt

theorem follows_other (h : s.Follows past) (hnotice : Notice.of info = .other) :
    (s.onStreamInfo info).1.Follows (past ++ [.other]) ∧
      ∀ a, attendance a (s.onStreamInfo info).2 = turn a past .other := by
  obtain ⟨hattendeeOf, hstreamOf, hevents⟩ := s.onStreamInfo_of_other hnotice
  refine ⟨⟨?unique, ?attendeeOf, ?streamOf⟩, hevents⟩
  case unique => exact hattendeeOf ▸ h.unique
  case attendeeOf =>
    intro stream a
    rw [hattendeeOf, live_concat]
    exact h.attendeeOf stream a
  case streamOf =>
    intro a
    rw [hstreamOf, latest_concat]
    exact h.streamOf a

theorem follows_onStreamInfo (h : s.Follows past) (single : Single (past ++ [Notice.of info])) :
    (s.onStreamInfo info).1.Follows (past ++ [Notice.of info]) ∧
      ∀ a, attendance a (s.onStreamInfo info).2 = turn a past (Notice.of info) := by
  cases hnotice : Notice.of info with
  | announced stream b => exact follows_announced h (hnotice ▸ single) hnotice
  | removed stream =>
    rw [s.onStreamInfo_of_removed hnotice]
    exact follows_removed h _
  | other => exact follows_other h hnotice

/-! ## Runs -/

def onFrames (s : Presence) : List AudioStreamIdInfoFrame → Presence × List Event
  | [] => (s, [])
  | frame :: rest =>
    let (s, events) := s.onStreamIdInfo frame
    let (s, more) := onFrames s rest
    (s, events ++ more)

def notices (frames : List AudioStreamIdInfoFrame) : List Notice :=
  (frames.flatMap (·.streams)).map Notice.of

theorem onStreams_append (s : Presence) (infos more : List AudioStreamIdInfo) :
    s.onStreams (infos ++ more) =
      (((s.onStreams infos).1.onStreams more).1,
        (s.onStreams infos).2 ++ ((s.onStreams infos).1.onStreams more).2) := by
  induction infos generalizing s with
  | nil => simp [onStreams]
  | cons info rest ih => simp [onStreams, ih]

/-- Where one frame ends and the next begins makes no difference. -/
theorem onFrames_eq (s : Presence) (frames : List AudioStreamIdInfoFrame) :
    s.onFrames frames = s.onStreams (frames.flatMap (·.streams)) := by
  induction frames generalizing s with
  | nil => rfl
  | cons frame rest ih =>
    rw [List.flatMap_cons, onStreams_append, ← ih]
    rfl

theorem follows_onStreams (h : s.Follows past) (infos : List AudioStreamIdInfo)
    (single : Single (past ++ infos.map Notice.of)) :
    (s.onStreams infos).1.Follows (past ++ infos.map Notice.of) ∧
      ∀ a, attendance a (s.onStreams infos).2 = turns a past (infos.map Notice.of) := by
  induction infos generalizing s past with
  | nil => simpa [onStreams, turns, attendance] using h
  | cons info rest ih =>
    rw [List.map_cons, List.append_cons] at single ⊢
    have hfirst : Single (past ++ [Notice.of info]) := fun stream a b ha hb =>
      single stream a b (List.mem_append_left _ ha) (List.mem_append_left _ hb)
    obtain ⟨hstep, hevents⟩ := follows_onStreamInfo h hfirst
    obtain ⟨hrest, hmore⟩ := ih hstep single
    have hcons : s.onStreams (info :: rest) = (((s.onStreamInfo info).1.onStreams rest).1,
        (s.onStreamInfo info).2 ++ ((s.onStreamInfo info).1.onStreams rest).2) := rfl
    rw [hcons]
    refine ⟨hrest, fun a => ?_⟩
    rw [attendance_append, hevents, hmore]
    rfl

theorem follows_new : ({} : Presence).Follows [] := by
  refine ⟨Table.unique_empty, ?_, ?_⟩ <;> simp [live, latest]

/-- An attendee is said to join and to leave exactly when it comes and goes. -/
theorem attendance_onFrames (frames : List AudioStreamIdInfoFrame)
    (single : Single (notices frames)) (a : String) :
    attendance a (({} : Presence).onFrames frames).2 = turns a [] (notices frames) := by
  rw [onFrames_eq]
  exact (follows_onStreams follows_new _ single).2 a

end Presence

/-! ## When coming and going alternate -/

/-- Whether coming and going alternate, the next thing being to come or to go. -/
def Alternating (next : Bool) : List Bool → Prop
  | [] => True
  | t :: rest => t = next ∧ Alternating (!next) rest

section Order

variable (a : String)

/-- Whether a notice keeps an attendee's streams in order: it is announced under its newest stream,
and it is the oldest one that is removed. -/
def InOrder (past : List Notice) : Notice → Prop
  | .announced stream b => b = a → ∀ other ∈ live a past, other ≤ stream
  | .removed stream => stream ∈ live a past → ∀ other ∈ live a past, stream ≤ other
  | .other => True

def OldestFirst (past : List Notice) : List Notice → Prop
  | [] => True
  | n :: rest => InOrder a past n ∧ OldestFirst (past ++ [n]) rest

/-- The stream announced last for an attendee is the newest that it has. -/
def LatestIsNewest (past : List Notice) : Prop :=
  ∀ stream ∈ live a past, ∃ newest, latest a past = some newest ∧ stream ≤ newest

variable {a} {past : List Notice}

theorem latest_eq_none_iff (h : LatestIsNewest a past) :
    latest a past = none ↔ live a past = [] := by
  constructor
  · intro hnone
    refine List.eq_nil_iff_forall_not_mem.mpr fun stream hmem => ?_
    obtain ⟨newest, hsome, -⟩ := h stream hmem
    exact absurd (hnone.symm.trans hsome) (by simp)
  · intro hempty
    cases hlatest : latest a past with
    | none => rfl
    | some stream => exact absurd (mem_live_of_latest a past stream hlatest) (by simp [hempty])

theorem latestIsNewest_concat (h : LatestIsNewest a past) {n : Notice} (order : InOrder a past n) :
    LatestIsNewest a (past ++ [n]) := by
  unfold LatestIsNewest
  rw [live_concat, latest_concat]
  intro stream hmem
  cases n with
  | announced s b =>
    by_cases hb : b = a
    · refine ⟨s, by simp [latestAfter, hb], ?_⟩
      simp only [liveAfter, hb, if_true] at hmem
      rcases List.mem_cons.mp hmem with rfl | hmem
      · exact UInt32.le_refl _
      · exact order hb stream hmem
    · simp only [liveAfter, latestAfter, if_neg hb] at hmem ⊢
      exact h stream hmem
  | removed s =>
    obtain ⟨hhas, hne⟩ : stream ∈ live a past ∧ stream ≠ s := by simpa [liveAfter] using hmem
    obtain ⟨newest, hlatest, hle⟩ := h stream hhas
    refine ⟨newest, ?_, hle⟩
    have hother : newest ≠ s := by
      rintro rfl
      -- the newest stream would be the oldest as well
      have hge := order (mem_live_of_latest a past newest hlatest) stream hhas
      exact hne (UInt32.le_antisymm hle hge)
    rw [hlatest, latestAfter, if_neg (by simpa using hother)]
  | other => exact h stream hmem

/-- While its streams are in order an attendee comes with the first and goes with the last. -/
theorem turn_of_inOrder (h : LatestIsNewest a past) {n : Notice} (order : InOrder a past n) :
    turn a past n =
      if (live a past).isEmpty = (live a (past ++ [n])).isEmpty then []
      else [(live a past).isEmpty] := by
  rw [live_concat]
  cases n with
  | announced s b =>
    by_cases hb : b = a
    · have hnone := latest_eq_none_iff h
      cases hlive : live a past <;> simp_all [turn, liveAfter]
    · simp [turn, liveAfter, hb]
  | removed s =>
    by_cases hs : s ∈ live a past
    -- the oldest stream is the greatest only if it is the last one left
    · have hlast : isGreatest a past s = true ↔
          liveAfter a (live a past) (.removed s) = [] := by
        rw [isGreatest_iff, liveAfter, List.filter_eq_nil_iff, and_iff_right hs]
        refine forall₂_congr fun other hmem => ?_
        have hle := order hs other hmem
        rw [decide_eq_true_eq, not_not]
        exact ⟨fun hge => UInt32.le_antisymm hge hle, fun heq => heq ▸ UInt32.le_refl _⟩
      have hthere : (live a past).isEmpty = false :=
        List.isEmpty_eq_false_iff.mpr (List.ne_nil_of_mem hs)
      rw [turn, hthere]
      by_cases hleft : liveAfter a (live a past) (.removed s) = []
      · rw [if_pos (hlast.mpr hleft), if_neg (by simp [hleft])]
      · rw [if_neg (mt hlast.mp hleft), if_pos (List.isEmpty_eq_false_iff.mpr hleft).symm]
    · have hsame : liveAfter a (live a past) (.removed s) = live a past := by
        refine List.filter_eq_self.mpr fun other hmem => ?_
        simpa using fun heq : other = s => hs (heq ▸ hmem)
      have hnot : ¬ isGreatest a past s = true := fun hgreatest =>
        hs ((isGreatest_iff a past s).mp hgreatest).1
      rw [turn, if_neg hnot, hsame, if_pos rfl]
  | other => simp [turn, liveAfter]

theorem alternating_turns (h : LatestIsNewest a past) {notices : List Notice}
    (order : OldestFirst a past notices) :
    Alternating (live a past).isEmpty (turns a past notices) := by
  induction notices generalizing past with
  | nil => trivial
  | cons n rest ih =>
    obtain ⟨first, later⟩ := order
    have hrest := ih (latestIsNewest_concat h first) later
    show Alternating _ (turn a past n ++ turns a (past ++ [n]) rest)
    -- having streams or none is what tells coming from going, and a turn changes it or is empty
    rw [turn_of_inOrder h first]
    by_cases hsame : (live a past).isEmpty = (live a (past ++ [n])).isEmpty
    · rw [if_pos hsame, hsame]
      exact hrest
    · rw [if_neg hsame]
      refine ⟨rfl, ?_⟩
      rw [Bool.eq_not_of_ne hsame, Bool.not_not]
      exact hrest

end Order

namespace Presence

/-- **Joining and leaving alternate as long as streams come and go in order**: they do for an
attendee that is announced under its newest stream only, and whose oldest stream is always removed
first. -/
theorem alternating_of_oldestFirst (frames : List AudioStreamIdInfoFrame)
    (single : Single (notices frames)) (a : String) (order : OldestFirst a [] (notices frames)) :
    Alternating true (attendance a (({} : Presence).onFrames frames).2) := by
  rw [attendance_onFrames frames single]
  exact alternating_turns (by simp [LatestIsNewest, live]) order

/-- **Joining and leaving alternate exactly if coming and going do**: exactly if an attendee does
not lose the greatest of its streams twice without being announced anew in between, nor is announced
anew twice without losing the greatest of its streams. -/
theorem alternating_attendance_iff (frames : List AudioStreamIdInfoFrame)
    (single : Single (notices frames)) (a : String) :
    Alternating true (attendance a (({} : Presence).onFrames frames).2) ↔
      Alternating true (turns a [] (notices frames)) := by
  rw [attendance_onFrames frames single]

/-- An announcement of a stream for an attendee, in a frame of its own. -/
def announcement (stream : UInt32) (attendeeId : String) : AudioStreamIdInfoFrame :=
  { streams := [{ audioStreamId := some stream, attendeeId := some attendeeId }] }

def removal (stream : UInt32) : AudioStreamIdInfoFrame :=
  { streams := [{ audioStreamId := some stream }] }

/-- An attendee comes back before its old stream is removed, and is said to have joined and left once
each. -/
theorem alternating_attendance_of_return :
    let frames := [announcement 1 "a", announcement 2 "a", removal 1, removal 2]
    Single (notices frames) ∧ turns "a" [] (notices frames) = [true, false] ∧
      attendance "a" (({} : Presence).onFrames frames).2 = [true, false] ∧
      Alternating true (attendance "a" (({} : Presence).onFrames frames).2) := by
  intro frames
  have single : Single (notices frames) := by
    intro stream a b ha hb
    simp [frames, notices, announcement, removal, Notice.of] at ha hb
    rcases ha with ⟨-, rfl⟩ | ⟨-, rfl⟩ <;> rcases hb with ⟨-, rfl⟩ | ⟨-, rfl⟩ <;> rfl
  have hturns : turns "a" [] (notices frames) = [true, false] := by decide
  refine ⟨single, hturns, by decide, (alternating_attendance_iff frames single "a").mpr ?_⟩
  rw [hturns]
  simp [Alternating]

/-- What the service promises of a notice: a stream that it announces belongs to no other attendee,
has not been removed before, and if it is a new one it is greater than those announced for the
attendee. -/
def Promised (past : List Notice) : Notice → Prop
  | .announced stream a =>
    (∀ b, .announced stream b ∈ past → b = a) ∧
    (.announced stream a ∈ past → stream ∈ live a past) ∧
    (.announced stream a ∉ past → ∀ older, .announced older a ∈ past → older < stream)
  | _ => True

def Guaranteed (past : List Notice) : List Notice → Prop
  | [] => True
  | n :: rest => Promised past n ∧ Guaranteed (past ++ [n]) rest

/-- The promise is not enough: if the newer of two streams is removed first, the attendee is said to
leave twice. -/
theorem not_alternating_attendance :
    let frames := [announcement 1 "a", announcement 2 "a", removal 2, removal 1]
    Guaranteed [] (notices frames) ∧
      attendance "a" (({} : Presence).onFrames frames).2 = [true, false, false] ∧
      ¬ Alternating true (attendance "a" (({} : Presence).onFrames frames).2) := by
  intro frames
  have hevents : attendance "a" (({} : Presence).onFrames frames).2 = [true, false, false] := by
    decide
  refine ⟨?_, hevents, ?_⟩
  · simp [frames, notices, announcement, removal, Notice.of, Guaranteed, Promised]
  · rw [hevents]
    simp [Alternating]

end Presence

end Parley
