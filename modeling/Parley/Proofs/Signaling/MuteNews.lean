import Parley.Proofs.Signaling.Attendance
import Parley.Proofs.Signaling.Reports

/-!
# `Parley/Proofs/Signaling/MuteNews.lean` — who is said to be muted

An attendee of whom nothing was reported counts as not muted. A report is passed on only if it
differs from the one before it on the same attendee, whichever of its streams the two were on. So an
attendee is said to be muted and not to be muted in turn, muted first, and who keeps the last word
on each attendee always knows what was reported last (`mute_news_alternate`).

A piece of news may announce a stream and report on it at once: the report is then on the attendee
for whom the stream is announced. Removals take no report back.
-/

set_option autoImplicit false

namespace Parley

open Parley.Arith Parley.Wire

/-- What an event says of muting. -/
def Event.muting? : Event → Option (Report Bool)
  | .attendeeMuted who => some ⟨who, true⟩
  | .attendeeUnmuted who => some ⟨who, false⟩
  | _ => none

/-- All that events say of muting, in order. -/
def mutingIn (events : List Event) : List (Report Bool) := events.filterMap Event.muting?

@[simp] theorem mutingIn_append (events more : List Event) :
    mutingIn (events ++ more) = mutingIn events ++ mutingIn more :=
  List.filterMap_append

/-- The report on muting that a piece of news brings, if its stream has an owner by then. -/
def muteReport? (past : List AudioStreamIdInfo) (info : AudioStreamIdInfo) :
    Option (Report Bool) := do
  let stream ← info.audioStreamId
  let muted ← info.muted
  let who ← owner (past ++ [info]) stream
  return ⟨who, muted⟩

/-- The reports on muting that news bring, after earlier news. -/
def muteReports (past : List AudioStreamIdInfo) : List AudioStreamIdInfo → List (Report Bool)
  | [] => []
  | info :: rest => (muteReport? past info).toList ++ muteReports (past ++ [info]) rest

theorem muteReports_append (past infos more : List AudioStreamIdInfo) :
    muteReports past (infos ++ more) =
      muteReports past infos ++ muteReports (past ++ infos) more := by
  induction infos generalizing past with
  | nil => simp [muteReports]
  | cons info rest ih => simp [muteReports, ih]

/-- Whether it is news that an attendee is muted or not. -/
def isMuteNews (before : Option Bool) (muted : Bool) : Bool := before.getD false != muted

namespace Presence

/-! ## One piece of news -/

/-- What a presence knows of muting is what was reported of each attendee last. -/
structure Mutes (s : Presence) (past : List AudioStreamIdInfo) (reports : List (Report Bool)) :
    Prop where
  owns : s.Owns past
  muted : ∀ a, s.muted.get? a = lastOf a reports

variable {s : Presence} {past : List AudioStreamIdInfo} {reports : List (Report Bool)}
  {stream : UInt32}

theorem Mutes.reportMute (h : s.Mutes past reports) (stream : UInt32) (muted : Bool) :
    let report : Option (Report Bool) := (owner past stream).map (⟨·, muted⟩)
    (s.reportMute stream muted).1.Mutes past (reports ++ report.toList) ∧
      mutingIn (s.reportMute stream muted).2 = told isMuteNews reports report.toList := by
  intro report
  have howns := h.owns.reportMute stream muted
  cases howner : owner past stream with
  | none =>
    have hnothing : s.reportMute stream muted = (s, []) := by
      simp [Presence.reportMute, h.owns.attendeeOf, howner]
    have hreport : report = none := by simp [report, howner]
    rw [hnothing, hreport]
    exact ⟨by simpa using h, rfl⟩
  | some who =>
    have hget : s.attendeeOf.get? stream = some who.attendeeId := by
      rw [h.owns.attendeeOf, howner]
      rfl
    have hreport : report = some ⟨who, muted⟩ := by simp [report, howner]
    have hmemory : ∀ a, s.muted.get? a = (lastOf a reports).map id := by
      intro a
      rw [Option.map_id_fun, h.muted]
      rfl
    rw [hreport]
    refine ⟨⟨howns, fun a => ?_⟩, ?_⟩
    · simp only [Presence.reportMute, hget]
      simpa using get?_insert_report hmemory ⟨who, muted⟩ a
    · simp only [Presence.reportMute, hget, h.owns.attendee_eq howner, h.muted]
      by_cases hsame : (lastOf who.attendeeId reports).getD false = muted
      · simp [hsame, told, isMuteNews, mutingIn]
      · cases muted <;> simp [hsame, told, isMuteNews, mutingIn, Event.muting?]

theorem mutingIn_announce (s : Presence) (stream : UInt32) (id external : String) :
    mutingIn (s.announce stream id external).2 = [] := by
  simp only [announce]
  split <;> rfl

theorem remove_keeps_muted (s : Presence) (stream : UInt32) (dropped : Bool) :
    (s.remove stream dropped).1.muted = s.muted ∧ mutingIn (s.remove stream dropped).2 = [] := by
  unfold remove
  split
  · exact ⟨rfl, rfl⟩
  · refine ⟨rfl, ?_⟩
    dsimp only
    split
    · rfl
    · split <;> rfl

theorem Mutes.onStreamInfo (h : s.Mutes past reports) (info : AudioStreamIdInfo) :
    (s.onStreamInfo info).1.Mutes (past ++ [info])
        (reports ++ (muteReport? past info).toList) ∧
      mutingIn (s.onStreamInfo info).2 =
        told isMuteNews reports (muteReport? past info).toList := by
  have howns := h.owns.onStreamInfo info
  cases hstream : info.audioStreamId with
  | none =>
    have hreport : muteReport? past info = none := by simp [muteReport?, hstream]
    simp only [Presence.onStreamInfo, hstream, hreport] at howns ⊢
    exact ⟨⟨howns, by simpa using h.muted⟩, rfl⟩
  | some stream =>
    cases hmuted : info.muted with
    | none =>
      have hreport : muteReport? past info = none := by simp [muteReport?, hmuted]
      cases hid : info.attendeeId with
      | none =>
        simp only [Presence.onStreamInfo, hstream, hid, hmuted, hreport] at howns ⊢
        obtain ⟨hkeeps, hnone⟩ := remove_keeps_muted s stream (info.dropped.getD false)
        exact ⟨⟨howns, by simpa [hkeeps] using h.muted⟩, hnone⟩
      | some id =>
        simp only [Presence.onStreamInfo, hstream, hid, hmuted, hreport] at howns ⊢
        refine ⟨⟨howns, ?_⟩, mutingIn_announce s stream id _⟩
        rw [Option.toList_none, List.append_nil]
        exact h.muted
    | some muted =>
      have hreport : muteReport? past info =
          (owner (past ++ [info]) stream).map (⟨·, muted⟩) := by
        simp only [muteReport?, hstream, hmuted, Option.bind_eq_bind, Option.bind_some]
        cases owner (past ++ [info]) stream <;> rfl
      rw [hreport]
      cases hid : info.attendeeId with
      | none =>
        simp only [Presence.onStreamInfo, hstream, hid, hmuted]
        have hpast : s.Owns (past ++ [info]) :=
          h.owns.unassigned fun other => by simp [AudioStreamIdInfo.assigns?, hid, hmuted]
        exact Mutes.reportMute ⟨hpast, h.muted⟩ stream muted
      | some id =>
        simp only [Presence.onStreamInfo, hstream, hid, hmuted, mutingIn_append, mutingIn_announce,
          List.nil_append]
        exact Mutes.reportMute ⟨h.owns.announce hstream hid, h.muted⟩ stream muted

/-! ## Runs -/

theorem Mutes.onStreams (h : s.Mutes past reports) (infos : List AudioStreamIdInfo) :
    (s.onStreams infos).1.Mutes (past ++ infos) (reports ++ muteReports past infos) ∧
      mutingIn (s.onStreams infos).2 = told isMuteNews reports (muteReports past infos) := by
  induction infos generalizing s past reports with
  | nil => exact ⟨by simpa [Presence.onStreams, muteReports] using h, rfl⟩
  | cons info rest ih =>
    obtain ⟨hstep, htold⟩ := h.onStreamInfo info
    obtain ⟨hrest, hmore⟩ := ih hstep
    have hcons : s.onStreams (info :: rest) = (((s.onStreamInfo info).1.onStreams rest).1,
        (s.onStreamInfo info).2 ++ ((s.onStreamInfo info).1.onStreams rest).2) := rfl
    rw [hcons, muteReports, told_append, mutingIn_append, htold, hmore, List.append_cons,
      ← List.append_assoc]
    exact ⟨hrest, rfl⟩

theorem Mutes.take (h : s.Mutes past reports) (frame : AudioFrame) :
    (s.take frame).1.Mutes (past ++ frame.news) (reports ++ muteReports past frame.news) ∧
      mutingIn (s.take frame).2 = told isMuteNews reports (muteReports past frame.news) := by
  cases frame with
  | streams f => exact h.onStreams f.streams
  | metadata f =>
    have howns := h.owns.take (.metadata f)
    obtain ⟨volumes, strengths, hnext⟩ := onAttendeeStates_eq s f.attendeeStates
    have hmuted : (s.take (.metadata f)).1.muted = s.muted := by
      show (s.onAttendeeStates f.attendeeStates).1.muted = s.muted
      rw [hnext]
    refine ⟨⟨howns, ?_⟩, ?_⟩
    · simpa [AudioFrame.news, muteReports, hmuted] using h.muted
    · simp only [Presence.take, onAudioMetadata, AudioFrame.news, muteReports, told]
      split <;> split <;> rfl

theorem Mutes.takeAll (h : s.Mutes past reports) (frames : List AudioFrame) :
    mutingIn (s.takeAll frames).2 = told isMuteNews reports (muteReports past (newsIn frames)) := by
  induction frames generalizing s past reports with
  | nil => rfl
  | cons frame rest ih =>
    obtain ⟨hstep, htold⟩ := h.take frame
    have hcons : (s.takeAll (frame :: rest)).2 =
        (s.take frame).2 ++ ((s.take frame).1.takeAll rest).2 := rfl
    rw [hcons, mutingIn_append, htold, ih hstep, newsIn_cons, muteReports_append, told_append]

/-! ## News of muting alternate -/

theorem alternating_told (a : String) (past reports : List (Report Bool)) :
    let before := (lastOf a past).getD false
    let said := reportedOf a (told isMuteNews past reports)
    Alternating (!before) said ∧
      said.getLast?.getD before = (lastOf a (past ++ reports)).getD false := by
  induction reports generalizing past with
  | nil => simp [told, reportedOf, Alternating]
  | cons r rest ih =>
    intro before said
    rw [List.append_cons]
    have hrest := ih (past ++ [r])
    rw [lastOf_concat] at hrest
    by_cases ha : r.who.attendeeId = a
    · simp only [if_pos ha, Option.getD_some] at hrest
      by_cases hsame : before = r.value
      · -- what was reported is known, and is not said again
        have hsaid : said = reportedOf a (told isMuteNews (past ++ [r]) rest) := by
          simp [said, told, isMuteNews, ha, before, hsame]
        rw [hsaid, hsame]
        exact hrest
      · have hsaid : said = r.value :: reportedOf a (told isMuteNews (past ++ [r]) rest) := by
          have hne : (lastOf a past).getD false ≠ r.value := hsame
          simp [said, told, isMuteNews, ha, hne, reportedOf]
        have hturn : r.value = !before := Bool.eq_not_of_ne (Ne.symm hsame)
        rw [hsaid]
        refine ⟨⟨hturn, ?_⟩, ?_⟩
        · rw [← hturn]
          exact hrest.1
        · rw [List.getLast?_cons, Option.getD_some]
          exact hrest.2
    · -- a report on somebody else
      have hsaid : said = reportedOf a (told isMuteNews (past ++ [r]) rest) := by
        simp only [said, told, reportedOf, List.filterMap_append]
        split <;> simp [ha]
      rw [hsaid]
      simpa only [if_neg ha] using hrest

/-- **News of muting alternate, and their last word is what was reported last.** Whatever frames a
new presence takes in, the news that an attendee is muted and that it is not come in turn, beginning
with the former; and the last of them, not muted if there was none, is what was reported last on a
stream that belonged to the attendee at that moment, not muted if there was no such report. -/
theorem mute_news_alternate (p : Precision) (frames : List AudioFrame) (a : String) :
    let said := reportedOf a (mutingIn ((fresh p).takeAll frames).2)
    Alternating true said ∧
      said.getLast?.getD false = (lastOf a (muteReports [] (newsIn frames))).getD false := by
  intro said
  have hnew : (fresh p).Mutes [] [] := ⟨owns_fresh p, fun _ => rfl⟩
  have hsaid : said = reportedOf a (told isMuteNews [] (muteReports [] (newsIn frames))) :=
    congrArg (reportedOf a) (hnew.takeAll frames)
  rw [hsaid]
  exact alternating_told a [] _

/-- The second stream of an attendee is announced as muted while it is muted already, and is then
given to another. -/
example :
    let info (stream : UInt32) (id : Option String) (muted : Option Bool) : AudioFrame :=
      .streams { streams := [{ audioStreamId := some stream, attendeeId := id, muted }] }
    let frames := [info 1 (some "a") (some true), info 2 (some "a") (some true),
      info 1 (some "b") none, info 1 none (some false), info 2 none (some false)]
    mutingIn ((fresh .single).takeAll frames).2 = [⟨⟨"a", ""⟩, true⟩, ⟨⟨"a", ""⟩, false⟩] := by
  decide

end Presence

end Parley
