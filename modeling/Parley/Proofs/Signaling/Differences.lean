import Parley.Proofs.Signaling.Course
import Parley.Proofs.Signaling.SourceNews

/-!
# `Parley/Proofs/Signaling/Differences.lean` — what an index changes, and what is told of it

Once a session has started, an index is told by how it differs from the sources known. It should
announce whom it lists and nobody knew, once each and in its own order, and withdraw whom it does
not list any more; and it does so for all attendees that its sources name. A source that names no
attendee is kept under the empty identifier, but does not count as listed under it: if it was known
and is still there, it is withdrawn and announced again. `tells_difference_iff` says that nothing
else goes amiss.
-/

set_option autoImplicit false

namespace Parley

open Parley.Wire

namespace VideoSources

/-! ## Those who are new -/

/-- Those of a list who are not known, once each, in the order in which they are first listed. -/
def newcomers (known listed : List String) : List String :=
  (listed.filter fun id => !known.contains id).eraseDups

variable {known : VideoSources} {sources : List StreamDescriptor} {visit : Visit} {id : String}

theorem mem_newcomers {known listed : List String} :
    id ∈ newcomers known listed ↔ id ∈ listed ∧ id ∉ known := by
  simp [newcomers, List.mem_eraseDups]

theorem newcomers_congr {known known' : List String} (listed : List String)
    (h : ∀ id ∈ listed, id ∈ known ↔ id ∈ known') :
    newcomers known listed = newcomers known' listed := by
  unfold newcomers
  congr 1
  apply List.filter_congr
  intro id hid
  simp [h id hid]

theorem newcomers_cons_of_mem {known rest : List String} (h : id ∈ known) :
    newcomers known (id :: rest) = newcomers known rest := by
  simp [newcomers, h]

theorem newcomers_cons_of_notMem {known rest : List String} (h : id ∉ known) :
    newcomers known (id :: rest) = id :: newcomers (id :: known) rest := by
  simp only [newcomers, List.filter_cons, List.contains_eq_mem, h, decide_false, Bool.not_false,
    if_true, List.eraseDups_cons, List.filter_filter]
  congr 3
  funext a
  by_cases ha : a = id <;> simp [ha]

theorem admitOne_snd (source : VideoSource) : (admitOne known source).2 =
    if source.attendee.attendeeId ∈ known.keys then [] else [source] := by
  unfold admitOne
  dsimp only
  split
  · rename_i hnone
    rw [if_neg (Table.get?_eq_none_iff.mp hnone)]
  · rename_i hsome
    rw [if_pos (Table.contains_iff.mp (by simp [Table.contains, hsome]))]

/-- The sources that come out as new are those of the newcomers, in the order of the list. -/
theorem names_admitAll (new : List VideoSource) :
    names (admitAll known new).2 = newcomers known.keys (names new) := by
  induction new generalizing known with
  | nil => rfl
  | cons source rest ih =>
    show names ((admitOne known source).2 ++ (admitAll (admitOne known source).1 rest).2) =
      newcomers known.keys (source.attendee.attendeeId :: names rest)
    have hkeys : newcomers (admitOne known source).1.keys (names rest) =
        newcomers (source.attendee.attendeeId :: known.keys) (names rest) :=
      newcomers_congr _ fun id _ => by rw [mem_keys_admitOne, List.mem_cons]
    rw [names, List.map_append, ← names, ← names, ih, hkeys, admitOne_snd]
    by_cases hmem : source.attendee.attendeeId ∈ known.keys
    · rw [if_pos hmem, newcomers_cons_of_mem hmem]
      exact newcomers_congr _ fun id _ =>
        List.mem_cons.trans (or_iff_right_of_imp fun heq => heq ▸ hmem)
    · rw [if_neg hmem, newcomers_cons_of_notMem hmem]
      rfl

theorem names_added : names (update known sources).2 =
    newcomers (kept known sources).keys (ids sources) :=
  names_admitAll _

/-! ## Those who are gone -/

theorem unique_admitOne (h : known.Unique) (source : VideoSource) :
    (admitOne known source).1.Unique := by
  unfold admitOne
  dsimp only
  split <;> exact h.insert _ _

theorem unique_admitAll (h : known.Unique) (new : List VideoSource) :
    (admitAll known new).1.Unique := by
  induction new generalizing known with
  | nil => exact h
  | cons source rest ih => exact ih (unique_admitOne h source)

theorem unique_update (h : known.Unique) : (update known sources).1.Unique :=
  unique_admitAll (h.filter _) _

/-- Those who are gone are withdrawn once each. -/
theorem nodup_names_gone (filed : Filed known) (h : known.Unique) :
    (names (gone known sources visit)).Nodup := by
  let left := known.entries.filter fun e => !(listed sources).contains e.1
  have hnames : names (left.map (·.2)) = left.map (·.1) := by
    rw [names, List.map_map]
    apply List.map_congr_left
    intro e he
    exact filed e (List.mem_filter.mp he).1
  have hleft : (left.map (·.1)).Nodup := List.pairwise_map.mpr (h.filter _)
  rw [← hnames] at hleft
  exact ((gone_perm known sources visit).map _).nodup_iff.mpr hleft

/-- A source that is listed without counting as listed is the empty identifier's. -/
theorem eq_empty_of_notMem_listed (h : id ∈ ids sources) (hnot : id ∉ listed sources) :
    id = "" := by
  obtain ⟨source, hsource, rfl⟩ := List.mem_map.mp h
  obtain ⟨d, hd, rfl⟩ := List.mem_map.mp hsource
  cases hname : d.profileUuid with
  | none => simp [ofStream, hname]
  | some name =>
    refine absurd (List.mem_filterMap.mpr ⟨d, hd, ?_⟩) hnot
    simp [ofStream, hname]

end VideoSources

open VideoSources

namespace Machine

/-! ## News of a difference -/

/-- The news that announce some sources and withdraw others. An empty list is not told. -/
def differenceNews (added removed : List VideoSource) : List Action :=
  (if added = [] then [] else [.emit (.videoSourcesAvailable added)]) ++
    (if removed = [] then [] else [.emit (.videoSourcesUnavailable removed)])

theorem differenceNews_inj {added removed added' removed' : List VideoSource}
    (h : differenceNews added removed = differenceNews added' removed') :
    added = added' ∧ removed = removed' := by
  unfold differenceNews at h
  split at h <;> split at h <;> split at h <;> split at h <;> simp_all

/-- Some news tell how those listed differ from those known: they announce the newcomers in order,
and withdraw once each those who are known and not listed. -/
structure TellsDifference (known listed : List String) (news : List Action) : Prop where
  told : ∃ added removed, news = differenceNews added removed ∧
    names added = newcomers known listed ∧
    (names removed).Nodup ∧ (∀ id, id ∈ names removed ↔ id ∈ known ∧ id ∉ listed) ∧
    (names added).Disjoint (names removed)

variable {m : Machine}

theorem indexNews_of_indexed (h : m.indexed = true) (index : IndexFrame) (now : Instant) :
    m.indexNews index now =
      differenceNews (m.sources.update index.sources).2
        (m.sources.gone index.sources (m.visits 0)) := by
  simp [indexNews, h, sourceNews, differenceNews, List.isEmpty_iff]

/-- The sources are kept by attendee, one for each. -/
structure Orderly (known : VideoSources) : Prop where
  filed : Filed known
  unique : known.Unique

theorem orderly_run (descriptor : Descriptor) (config : SignalingConfig) (offerId : UInt64)
    (visits : VideoSources.Visits) (inputs : List Input) :
    Orderly ((new descriptor config offerId visits).run inputs).1.sources := by
  refine moments_induction (P := fun _ m => Orderly m.sources) ?_ ?_ inputs
  · exact ⟨by simp [Filed, new], Table.unique_empty⟩
  · intro _ t h
    cases htaken : t.taken? with
    | none =>
      rw [Moment.sources_of_untaken htaken]
      exact h
    | some brought =>
      rw [(Moment.step_of_taken htaken).1]
      exact ⟨filed_update h.filed, unique_update h.unique⟩

/-- What is told of an index differs from what should be told in the empty identifier alone. -/
theorem tellsDifference_indexNews_iff (h : Orderly m.sources) (indexed : m.indexed = true)
    (index : IndexFrame) (now : Instant) :
    TellsDifference m.sources.keys (ids index.sources) (m.indexNews index now) ↔
      ("" ∈ m.sources.keys → "" ∈ ids index.sources → "" ∈ listed index.sources) := by
  have hgone : ∀ id, id ∈ names (m.sources.gone index.sources (m.visits 0)) ↔
      id ∈ m.sources.keys ∧ id ∉ listed index.sources := fun id => mem_names_gone h.filed
  rw [indexNews_of_indexed indexed]
  constructor
  · rintro ⟨added, removed, hnews, -, -, hremoved, -⟩ hknown hlisted
    obtain ⟨-, rfl⟩ := differenceNews_inj hnews
    by_contra hnot
    exact ((hremoved "").mp ((hgone "").mpr ⟨hknown, hnot⟩)).2 hlisted
  · intro hempty
    -- those known are listed exactly if their source names them
    have hnamed : ∀ id ∈ m.sources.keys, id ∈ ids index.sources ↔ id ∈ listed index.sources := by
      intro id hid
      refine ⟨fun hlisted => ?_, mem_ids_of_mem_listed⟩
      by_contra hnot
      obtain rfl := eq_empty_of_notMem_listed hlisted hnot
      exact hnot (hempty hid hlisted)
    have hadded : names (m.sources.update index.sources).2 =
        newcomers m.sources.keys (ids index.sources) := by
      rw [names_added]
      apply newcomers_congr
      intro id hlisted
      rw [mem_keys_kept]
      exact ⟨And.left, fun hid => ⟨hid, (hnamed id hid).mp hlisted⟩⟩
    refine ⟨_, _, rfl, hadded, nodup_names_gone h.filed h.unique, fun id => ?_, ?_⟩
    · rw [hgone]
      exact and_congr_right fun hid => not_congr (hnamed id hid).symm
    · intro id hnew hold
      rw [hadded, mem_newcomers] at hnew
      exact hnew.2 ((hgone id).mp hold).1

/-- **When the news of an index tell what it changes**: in every run of a new machine, an index that
is taken in after the session has started leaves exactly those known whom it lists, and its news tell
how they differ from those known before, exactly unless the empty identifier was known and is listed
only by sources that name nobody. -/
theorem tells_difference_iff (descriptor : Descriptor) (config : SignalingConfig) (offerId : UInt64)
    (visits : VideoSources.Visits) (past : List Input) (input : Input) (index : IndexFrame)
    (now : Instant) :
    let m := ((new descriptor config offerId visits).run past).1
    m.indexed = true → input.index? = some (index, now) → m.Admits index →
      (∀ id, id ∈ (m.step input).1.sources.keys ↔ id ∈ ids index.sources) ∧
      (TellsDifference m.sources.keys (ids index.sources) (m.step input).2 ↔
        ("" ∈ m.sources.keys → "" ∈ ids index.sources → "" ∈ listed index.sources)) := by
  intro m indexed hindex hadmits
  rw [step_of_admits hindex hadmits, onIndex_of_admits hadmits]
  have orderly : Orderly m.sources := orderly_run descriptor config offerId visits past
  exact ⟨fun id => mem_keys_update, tellsDifference_indexNews_iff orderly indexed index now⟩

/-- A client that knows of a's source and is told twice of b's. -/
theorem tells_difference_iff_of_change :
    let descriptor : Descriptor :=
      { meetingId := "m", externalMeetingId := "", credentials := ⟨"a", "", "t"⟩
        audioHostUrl := "", signalingUrl := ⟨"ws://h", by decide⟩ }
    let past : List Input := [.start, .transportUp, .message [0x02, 0x08, 0x00, 0x10, 0x02] 0,
      .message [0x02, 0x08, 0x00, 0x10, 0x05, 0x3a, 0x05, 0x12, 0x03, 0x42, 0x01, 0x61] 0]
    let indexOfB : Input := .message [0x02, 0x08, 0x00, 0x10, 0x05, 0x3a, 0x0a, 0x12, 0x03, 0x42,
      0x01, 0x62, 0x12, 0x03, 0x42, 0x01, 0x62] 0
    let m := ((new descriptor {} 0).run past).1
    let ofB : StreamDescriptor := { profileUuid := some "b" }
    m.indexed = true ∧ indexOfB.index? = some ({ sources := [ofB, ofB] }, 0) ∧
      m.Admits { sources := [ofB, ofB] } ∧ m.sources.keys = ["a"] ∧
      TellsDifference ["a"] ["b", "b"] (m.step indexOfB).2 := by
  intro descriptor past indexOfB m ofB
  have indexed : m.indexed = true := by decide +kernel
  have hindex : indexOfB.index? = some ({ sources := [ofB, ofB] }, 0) := by decide +kernel
  have hadmits : m.Admits { sources := [ofB, ofB] } := by decide +kernel
  have known : m.sources.keys = ["a"] := by decide +kernel
  have htells := (tells_difference_iff descriptor {} 0 (fun _ => .asKept) past indexOfB _ 0
    indexed hindex hadmits).2
  refine ⟨indexed, hindex, hadmits, known, ?_⟩
  rw [known] at htells
  exact htells.mpr (by decide)

/-- A source that names nobody is told anew, and told to be gone, by each index that lists it. -/
theorem not_tells_difference_of_nameless :
    let descriptor : Descriptor :=
      { meetingId := "m", externalMeetingId := "", credentials := ⟨"a", "", "t"⟩
        audioHostUrl := "", signalingUrl := ⟨"ws://h", by decide⟩ }
    let nameless : Input := .message [0x02, 0x08, 0x00, 0x10, 0x05, 0x3a, 0x02, 0x12, 0x00] 0
    let past : List Input :=
      [.start, .transportUp, .message [0x02, 0x08, 0x00, 0x10, 0x02] 0, nameless]
    let m := ((new descriptor {} 0).run past).1
    m.indexed = true ∧ nameless.index? = some ({ sources := [{}] }, 0) ∧
      m.Admits { sources := [{}] } ∧ m.sources.keys = [""] ∧ ids [{}] = [""] ∧
      (m.step nameless).2 = [.emit (.videoSourcesAvailable [ofStream {}]),
        .emit (.videoSourcesUnavailable [ofStream {}])] ∧
      ¬ TellsDifference m.sources.keys (ids [{}]) (m.step nameless).2 := by
  intro descriptor nameless past m
  have indexed : m.indexed = true := by decide +kernel
  have hindex : nameless.index? = some ({ sources := [{}] }, 0) := by decide +kernel
  have hadmits : m.Admits { sources := [{}] } := by decide +kernel
  have known : m.sources.keys = [""] := by decide +kernel
  refine ⟨indexed, hindex, hadmits, known, rfl, by decide +kernel, ?_⟩
  rw [step_of_admits hindex hadmits, onIndex_of_admits hadmits, known]
  have orderly : Orderly m.sources := orderly_run descriptor {} 0 (fun _ => .asKept) past
  have hiff := tellsDifference_indexNews_iff orderly indexed { sources := [{}] } 0
  rw [known] at hiff
  exact fun htells => absurd (hiff.mp htells (by simp) (by decide)) (by decide)

end Machine

end Parley
