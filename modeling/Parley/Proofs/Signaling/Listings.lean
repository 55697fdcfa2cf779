import Parley.Proofs.Signaling.Differences

/-!
# `Parley/Proofs/Signaling/Listings.lean` — which of the listed values a machine knows

An index that is taken in brings the known sources up to date: for each attendee that it lists, its
last source for that attendee says the group, the bitrate and the names. The stream is another
matter. It is taken from the source that an attendee was first listed with, and stays as long as
each further index names the attendee (`VideoSources.origin`). So a source that goes over to another
stream is known under the old one, and is withdrawn under it, perhaps many indexes later.
`known_as_listed_iff` says exactly what is known, and with it when all of it is what was listed last.
-/

set_option autoImplicit false

namespace Parley

open Parley.Wire

namespace VideoSources

/-! ## What an index lists for an attendee -/

/-- The sources that an index lists for an attendee, in order. -/
def theirs (id : String) (sources : List StreamDescriptor) : List StreamDescriptor :=
  sources.filter fun d => d.profileUuid.getD "" = id

def firstListed (id : String) (sources : List StreamDescriptor) : Option StreamDescriptor :=
  (theirs id sources).head?

def lastListed (id : String) (sources : List StreamDescriptor) : Option StreamDescriptor :=
  (theirs id sources).getLast?

/-- The source that an attendee was first listed with, since when each index has named it. -/
def origin (id : String) (history : List (List StreamDescriptor)) : Option StreamDescriptor :=
  history.foldl (fun origin sources =>
    if id ∈ listed sources then origin.or (firstListed id sources)
    else firstListed id sources) none

def streamOf (d : Option StreamDescriptor) : UInt32 := (d.bind (·.streamId)).getD 0

variable {known : VideoSources} {sources : List StreamDescriptor} {id : String}

theorem origin_concat (id : String) (history : List (List StreamDescriptor))
    (sources : List StreamDescriptor) :
    origin id (history ++ [sources]) =
      if id ∈ listed sources then (origin id history).or (firstListed id sources)
      else firstListed id sources := by
  simp [origin, List.foldl_append]

theorem theirs_eq_nil_iff : theirs id sources = [] ↔ id ∉ ids sources := by
  simp [theirs, ids, names, ofStream]

/-! ## What is known of an attendee -/

theorem get?_kept : (kept known sources).get? id =
    if id ∈ listed sources then known.get? id else none := by
  simpa [kept] using Table.get?_filter known (fun k => (listed sources).contains k) id

theorem get?_admitOne (source : VideoSource) : (admitOne known source).1.get? id =
    if source.attendee.attendeeId = id then
      some { source with streamId := ((known.get? id).getD source).streamId }
    else known.get? id := by
  unfold admitOne
  dsimp only
  split
  · rename_i hnone
    split
    · rename_i heq
      subst heq
      simp [hnone]
    · rename_i hne
      exact Table.get?_insert_of_ne known source (Ne.symm hne)
  · rename_i old hsome
    split
    · rename_i heq
      subst heq
      simp [hsome]
    · rename_i hne
      exact Table.get?_insert_of_ne known _ (Ne.symm hne)

/-- The last one of an attendee's sources is known in the end, but for the stream, which is that of
the source known before, or else of the first one. -/
theorem get?_admitAll (new : List VideoSource) : (admitAll known new).1.get? id =
    match (new.filter fun s => s.attendee.attendeeId = id).getLast? with
    | none => known.get? id
    | some last =>
      some { last with
        streamId := (((known.get? id).or
          (new.filter fun s => s.attendee.attendeeId = id).head?).getD last).streamId } := by
  induction new generalizing known with
  | nil => rfl
  | cons source rest ih =>
    show (admitAll (admitOne known source).1 rest).1.get? id = _
    rw [ih, get?_admitOne]
    by_cases heq : source.attendee.attendeeId = id
    · simp only [heq, if_true, List.filter_cons, decide_true]
      cases hlast : (rest.filter fun s => s.attendee.attendeeId = id).getLast? with
      | none =>
        rw [List.getLast?_eq_none_iff.mp hlast]
        cases known.get? id <;> rfl
      | some last =>
        rw [List.getLast?_cons, hlast]
        cases known.get? id <;> rfl
    · simp only [heq, if_false, List.filter_cons, decide_false, Bool.false_eq_true]

theorem filter_map_ofStream (id : String) (sources : List StreamDescriptor) :
    (sources.map ofStream).filter (fun s => s.attendee.attendeeId = id) =
      (theirs id sources).map ofStream := by
  rw [List.filter_map]
  rfl

/-- The stream of an attendee is the one known before if the index names it, or else the first one
that the index lists for it. -/
theorem get?_update : (update known sources).1.get? id =
    (lastListed id sources).map fun last =>
      { ofStream last with
        streamId := (((if id ∈ listed sources then known.get? id else none).or
          ((firstListed id sources).map ofStream)).getD (ofStream last)).streamId } := by
  show (admitAll (kept known sources) (sources.map ofStream)).1.get? id = _
  rw [get?_admitAll, filter_map_ofStream, List.getLast?_map, List.head?_map, ← lastListed,
    ← firstListed, get?_kept]
  cases hlast : lastListed id sources with
  | some last => rfl
  | none =>
    have hnot : id ∉ ids sources := theirs_eq_nil_iff.mp (List.getLast?_eq_none_iff.mp hlast)
    exact if_neg (hnot ∘ mem_ids_of_mem_listed)

/-- What is known of an attendee after a history of indexes. -/
def knownAfter (id : String) (history : List (List StreamDescriptor)) : Option VideoSource :=
  (history.getLast?.bind (lastListed id)).map fun last =>
    { ofStream last with streamId := streamOf (origin id history) }

theorem knownAfter_concat (id : String) (history : List (List StreamDescriptor))
    (sources : List StreamDescriptor) :
    knownAfter id (history ++ [sources]) = (lastListed id sources).map fun last =>
      { ofStream last with streamId := streamOf (origin id (history ++ [sources])) } := by
  simp [knownAfter]

theorem isSome_firstListed : (firstListed id sources).isSome = (lastListed id sources).isSome := by
  unfold firstListed lastListed
  cases theirs id sources <;> simp

theorem isSome_origin (id : String) (history : List (List StreamDescriptor)) :
    (origin id history).isSome = (history.getLast?.bind (lastListed id)).isSome := by
  rcases List.eq_nil_or_concat' history with rfl | ⟨history, sources, rfl⟩
  · rfl
  · rw [origin_concat, List.getLast?_concat, Option.bind_some, ← isSome_firstListed]
    split
    · rename_i hlisted
      have hsome : (firstListed id sources).isSome = true := by
        unfold firstListed
        cases hown : theirs id sources with
        | nil => exact absurd (mem_ids_of_mem_listed hlisted) (theirs_eq_nil_iff.mp hown)
        | cons d rest => rfl
      rw [Option.isSome_or, hsome, Bool.or_true]
    · rfl

theorem streamId_knownAfter (id : String) (history : List (List StreamDescriptor)) :
    (knownAfter id history).map (·.streamId) =
      (origin id history).map fun d => (ofStream d).streamId := by
  have hsome := isSome_origin id history
  unfold knownAfter
  cases horigin : origin id history <;>
    cases hlast : history.getLast?.bind (lastListed id) <;> simp_all [streamOf, ofStream]

theorem get?_update_of_knownAfter {history : List (List StreamDescriptor)}
    (h : known.get? id = knownAfter id history) :
    (update known sources).1.get? id = knownAfter id (history ++ [sources]) := by
  rw [get?_update, knownAfter_concat, h]
  cases hlast : lastListed id sources with
  | none => rfl
  | some last =>
    obtain ⟨first, hfirst⟩ : ∃ first, firstListed id sources = some first :=
      Option.isSome_iff_exists.mp (by rw [isSome_firstListed, hlast]; rfl)
    have hstream := streamId_knownAfter id history
    simp only [Option.map_some, hfirst, origin_concat]
    split
    · cases horigin : origin id history <;> cases hknown : knownAfter id history <;>
        simp_all [streamOf, ofStream]
    · simp [streamOf, ofStream]

end VideoSources

namespace Machine

open VideoSources

/-! ## Runs -/

/-- The lists of sources that the indexes taken in so far have brought. -/
def listings (course : List Moment) : List (List StreamDescriptor) :=
  course.filterMap fun t => t.taken?.map (·.1.sources)

/-- What a machine knows of its sources, against the indexes of its past. -/
def Recalls (course : List Moment) (m : Machine) : Prop :=
  ∀ id, m.sources.get? id = knownAfter id (listings course)

theorem listings_of_untaken {course : List Moment} {t : Moment} (h : t.taken? = none) :
    listings (course ++ [t]) = listings course := by
  simp [listings, h]

theorem listings_of_taken {course : List Moment} {t : Moment} {index : IndexFrame} {now : Instant}
    (h : t.taken? = some (index, now)) :
    listings (course ++ [t]) = listings course ++ [index.sources] := by
  simp [listings, h]

theorem Recalls.step {course : List Moment} {t : Moment} (h : Recalls course t.machine) :
    Recalls (course ++ [t]) t.next := by
  intro id
  cases htaken : t.taken? with
  | none =>
    rw [Moment.sources_of_untaken htaken, listings_of_untaken htaken]
    exact h id
  | some brought =>
    rw [(Moment.step_of_taken htaken).1, listings_of_taken htaken]
    exact get?_update_of_knownAfter (h id)

theorem recalls_run (descriptor : Descriptor) (config : SignalingConfig) (offerId : UInt64)
    (visits : VideoSources.Visits) {inputs : List Input} {before after : List Moment} {t : Moment}
    (h : (new descriptor config offerId visits).moments inputs = before ++ t :: after) :
    Recalls before t.machine :=
  invariant_at (fun _ => rfl) (fun _ _ => Recalls.step) h

/-- Who is withdrawn was known until then. -/
theorem get?_of_mem_gone {known : VideoSources} {sources : List StreamDescriptor}
    {visit : Visit} {source : VideoSource} (h : Orderly known)
    (hgone : source ∈ gone known sources visit) :
    known.get? source.attendee.attendeeId = some source := by
  rw [(gone_perm known sources visit).mem_iff] at hgone
  obtain ⟨e, he, rfl⟩ := List.mem_map.mp hgone
  have hmem := (List.mem_filter.mp he).1
  rw [h.filed e hmem]
  exact (Table.mem_entries_iff h.unique).mp hmem

/-- An index withdraws those whom it no longer lists. -/
theorem unavailable_mem_indexNews {m : Machine} {index : IndexFrame} {now : Instant}
    {removed : List VideoSource}
    (h : .emit (.videoSourcesUnavailable removed) ∈ m.indexNews index now) :
    removed = gone m.sources index.sources (m.visits 0) := by
  unfold indexNews at h
  dsimp only at h
  split at h
  · rcases List.mem_append.mp h with h | h <;> split at h
    · exact absurd h (by simp)
    · exact absurd h (by simp)
    · exact absurd h (by simp)
    · simpa using h
  · split at h <;> exact absurd h (by simp)

theorem exists_lastListed {id : String} {sources : List StreamDescriptor} (h : id ∈ ids sources) :
    ∃ last, lastListed id sources = some last := by
  cases hlast : lastListed id sources with
  | some last => exact ⟨last, rfl⟩
  | none =>
    exact absurd h (theirs_eq_nil_iff.mp (List.getLast?_eq_none_iff.mp hlast))

theorem mem_ids_of_lastListed {id : String} {sources : List StreamDescriptor}
    {last : StreamDescriptor} (h : lastListed id sources = some last) : id ∈ ids sources := by
  by_contra hnot
  rw [lastListed, theirs_eq_nil_iff.mpr hnot] at h
  exact absurd h (by simp)

/-- **What is known of the sources**: in every run of a new machine, after an index that is taken in,
each attendee's source is known as the index lists it last, but under the stream that the attendee
was first listed with, since when each index has named it. So all that is known is what the index
lists exactly if no attendee's stream has changed meanwhile. And a source is withdrawn as it was
known after the indexes before. -/
theorem known_as_listed_iff (descriptor : Descriptor) (config : SignalingConfig) (offerId : UInt64)
    (visits : VideoSources.Visits) (inputs : List Input) (before after : List Moment) (t : Moment)
    (index : IndexFrame) (now : Instant) :
    (new descriptor config offerId visits).moments inputs = before ++ t :: after →
    t.taken? = some (index, now) →
    let stream (id : String) := streamOf (origin id (listings before ++ [index.sources]))
    (∀ id, t.next.sources.get? id = (lastListed id index.sources).map fun last =>
      { ofStream last with streamId := stream id }) ∧
    ((∀ id source, t.next.sources.get? id = some source →
        (lastListed id index.sources).map ofStream = some source) ↔
      ∀ id ∈ ids index.sources, stream id = streamOf (lastListed id index.sources)) ∧
    ∀ removed, .emit (.videoSourcesUnavailable removed) ∈ t.actions → ∀ source ∈ removed,
      knownAfter source.attendee.attendeeId (listings before) = some source := by
  intro hcourse htaken stream
  have recalls : Recalls before t.machine := recalls_run descriptor config offerId visits hcourse
  have hknown : ∀ id, t.next.sources.get? id = (lastListed id index.sources).map fun last =>
      { ofStream last with streamId := stream id } := by
    intro id
    rw [recalls.step id, listings_of_taken htaken, knownAfter_concat]
  refine ⟨hknown, ⟨fun hall id hid => ?_, fun hsame id source hsource => ?_⟩, ?_⟩
  · obtain ⟨last, hlast⟩ := exists_lastListed hid
    have hget := hknown id
    rw [hlast, Option.map_some] at hget
    have heq := hall id _ hget
    rw [hlast, Option.map_some, Option.some.injEq] at heq
    rw [hlast]
    exact (congrArg VideoSource.streamId heq).symm
  · rw [hknown id] at hsource
    obtain ⟨last, hlast, rfl⟩ := Option.map_eq_some_iff.mp hsource
    rw [hsame id (mem_ids_of_lastListed hlast), hlast]
    rfl
  · intro removed hremoved source hsource
    obtain ⟨past, -, hmachine⟩ := moments_eq_append hcourse
    obtain ⟨index', now', -, hnews⟩ := Moment.taken_of_news hremoved rfl
    obtain rfl := unavailable_mem_indexNews hnews
    have orderly : Orderly t.machine.sources :=
      hmachine ▸ orderly_run descriptor config offerId visits past
    rw [← recalls source.attendee.attendeeId]
    exact get?_of_mem_gone orderly hsource

/-- While b's source goes away, a's is put into another group. -/
theorem known_as_listed_iff_of_regrouping :
    let descriptor : Descriptor :=
      { meetingId := "m", externalMeetingId := "", credentials := ⟨"a", "", "t"⟩
        audioHostUrl := "", signalingUrl := ⟨"ws://h", by decide⟩ }
    let m := new descriptor {} 0
    let ofB : StreamDescriptor := { streamId := some 2, profileUuid := some "b" }
    let regrouped : StreamDescriptor :=
      { streamId := some 1, groupId := some 7, profileUuid := some "a" }
    let past : List Input := [.start, .transportUp, .message [0x02, 0x08, 0x00, 0x10, 0x02] 0,
      .message [0x02, 0x08, 0x00, 0x10, 0x05, 0x3a, 0x0e, 0x12, 0x05, 0x08, 0x01, 0x42, 0x01, 0x61,
        0x12, 0x05, 0x08, 0x02, 0x42, 0x01, 0x62] 0]
    let t : Moment := ⟨(m.run past).1, .message [0x02, 0x08, 0x00, 0x10, 0x05, 0x3a, 0x09, 0x12,
      0x07, 0x08, 0x01, 0x30, 0x07, 0x42, 0x01, 0x61] 0⟩
    m.moments (past ++ [t.input]) = m.moments past ++ t :: [] ∧
      t.taken? = some ({ sources := [regrouped] }, 0) ∧
      .emit (.videoSourcesUnavailable [ofStream ofB]) ∈ t.actions ∧
      (∀ id source, t.next.sources.get? id = some source →
        (lastListed id [regrouped]).map ofStream = some source) ∧
      knownAfter "b" (listings (m.moments past)) = some (ofStream ofB) := by
  intro descriptor m ofB regrouped past t
  have hcourse : m.moments (past ++ [t.input]) = m.moments past ++ t :: [] :=
    moments_concat m past t.input
  have htaken : t.taken? = some ({ sources := [regrouped] }, 0) := by decide +kernel
  have hgone : .emit (.videoSourcesUnavailable [ofStream ofB]) ∈ t.actions := by decide +kernel
  obtain ⟨-, known, withdrawn⟩ :=
    known_as_listed_iff descriptor {} 0 (fun _ => .asKept) (past ++ [t.input]) _ [] t _ 0 hcourse
      htaken
  refine ⟨hcourse, htaken, hgone, known.mpr ?_, withdrawn _ hgone (ofStream ofB) (by simp)⟩
  decide +kernel

/-- A source that goes over from stream 1 to stream 2 is known under stream 1, and withdrawn under
it. -/
theorem not_known_as_listed_of_new_stream :
    let descriptor : Descriptor :=
      { meetingId := "m", externalMeetingId := "", credentials := ⟨"a", "", "t"⟩
        audioHostUrl := "", signalingUrl := ⟨"ws://h", by decide⟩ }
    let on (stream : UInt32) : StreamDescriptor :=
      { streamId := some stream, profileUuid := some "a" }
    let listing (stream : UInt8) : Input := .message [0x02, 0x08, 0x00, 0x10, 0x05, 0x3a, 0x07,
      0x12, 0x05, 0x08, stream, 0x42, 0x01, 0x61] 0
    let past : List Input :=
      [.start, .transportUp, .message [0x02, 0x08, 0x00, 0x10, 0x02] 0, listing 1]
    let t : Moment := ⟨((new descriptor {} 0).run past).1, listing 2⟩
    t.taken? = some ({ sources := [on 2] }, 0) ∧
      (lastListed "a" [on 2]).map ofStream = some (ofStream (on 2)) ∧
      t.next.sources.get? "a" = some (ofStream (on 1)) ∧ ofStream (on 1) ≠ ofStream (on 2) ∧
      (t.next.step (.message [0x02, 0x08, 0x00, 0x10, 0x05, 0x3a, 0x00] 0)).2 =
        [.emit (.videoSourcesUnavailable [ofStream (on 1)])] := by
  decide +kernel

end Machine

end Parley
