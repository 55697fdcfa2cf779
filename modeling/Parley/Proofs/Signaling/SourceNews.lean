import Mathlib.Data.Finset.Basic
import Mathlib.Data.List.Induction
import Parley.Proofs.Signaling.Bearing

/-!
# `Parley/Proofs/Signaling/SourceNews.lean` — what the news say of the video sources

The news of video sources are differences, from which a listener puts together who has a source. The
machine keeps the same by attendee, and an index that it takes in replaces what it knows, whatever
that was (`VideoSources.mem_keys_update`). Not all of the difference is told, though:
`Machine.Conveys` says of which indexes enough is told, and `Machine.mirrored_iff_conveyed` that a
listener is up to date over a run exactly if all of its indexes are of that sort.

All other inputs leave the sources alone and tell nothing of them (`Machine.aside_step`).
-/

set_option autoImplicit false

namespace Parley

open Parley.Wire

namespace VideoSources

/-! ## Comparing an index with what is known -/

def names (sources : List VideoSource) : List String := sources.map (·.attendee.attendeeId)

/-- The attendees that an index lists; a source that names none is the empty one's. -/
def ids (sources : List StreamDescriptor) : List String := names (sources.map ofStream)

/-- Every source is kept under its attendee. -/
def Filed (known : VideoSources) : Prop := ∀ e ∈ known.entries, e.2.attendee.attendeeId = e.1

variable {known : VideoSources} {sources : List StreamDescriptor} {visit : Visit} {id : String}

theorem mem_ids_of_mem_listed (h : id ∈ listed sources) : id ∈ ids sources := by
  obtain ⟨d, hd, hid⟩ := List.mem_filterMap.mp h
  refine List.mem_map.mpr ⟨ofStream d, List.mem_map_of_mem hd, ?_⟩
  simp [ofStream, hid]

theorem mem_keys_kept : id ∈ (kept known sources).keys ↔ id ∈ known.keys ∧ id ∈ listed sources := by
  simp [kept, Table.keys]

/-- However the sources known are gone through, the same are gone. -/
theorem gone_perm (known : VideoSources) (sources : List StreamDescriptor) (visit : Visit) :
    (gone known sources visit).Perm
      ((known.entries.filter fun e => !(listed sources).contains e.1).map (·.2)) :=
  ((visit.perm known.entries).filter _).map _

theorem mem_names_gone (h : Filed known) :
    id ∈ names (gone known sources visit) ↔ id ∈ known.keys ∧ id ∉ listed sources := by
  rw [names, ((gone_perm known sources visit).map _).mem_iff]
  constructor
  · intro hid
    obtain ⟨source, hsource, rfl⟩ := List.mem_map.mp hid
    obtain ⟨e, he, rfl⟩ := List.mem_map.mp hsource
    obtain ⟨hmem, hnot⟩ := List.mem_filter.mp he
    rw [h e hmem]
    exact ⟨List.mem_map_of_mem hmem, by simpa using hnot⟩
  · rintro ⟨hid, hnot⟩
    obtain ⟨e, hmem, rfl⟩ := List.mem_map.mp hid
    refine List.mem_map.mpr ⟨e.2, List.mem_map_of_mem ?_, h e hmem⟩
    exact List.mem_filter.mpr ⟨hmem, by simpa using hnot⟩

theorem filed_insert (h : Filed known) {source : VideoSource}
    (hid : source.attendee.attendeeId = id) : Filed (known.insert id source) := by
  intro e he
  rcases List.mem_cons.mp he with rfl | he
  · exact hid
  · exact h e (List.mem_filter.mp he).1

theorem filed_kept (h : Filed known) : Filed (kept known sources) := by
  intro e he
  exact h e (List.mem_filter.mp he).1

theorem filed_admitOne (h : Filed known) (source : VideoSource) :
    Filed (admitOne known source).1 := by
  unfold admitOne
  dsimp only
  split
  · exact filed_insert h rfl
  · exact filed_insert h rfl

theorem mem_keys_admitOne (source : VideoSource) :
    id ∈ (admitOne known source).1.keys ↔
      id = source.attendee.attendeeId ∨ id ∈ known.keys := by
  unfold admitOne
  dsimp only
  split <;> exact Table.mem_keys_insert

theorem mem_names_admitOne (source : VideoSource) :
    id ∈ names (admitOne known source).2 ↔
      id = source.attendee.attendeeId ∧ id ∉ known.keys := by
  unfold admitOne
  dsimp only
  split
  · rename_i hnone
    rw [Table.get?_eq_none_iff] at hnone
    constructor
    · intro hid
      obtain rfl : id = _ := by simpa [names] using hid
      exact ⟨rfl, hnone⟩
    · rintro ⟨rfl, -⟩
      simp [names]
  · rename_i old hold
    have hmem : source.attendee.attendeeId ∈ known.keys := by
      by_contra hnot
      rw [Table.get?_eq_none_iff.mpr hnot] at hold
      exact absurd hold (by simp)
    constructor
    · intro hid
      exact absurd hid (by simp [names])
    · rintro ⟨rfl, hnot⟩
      exact absurd hmem hnot

theorem filed_admitAll (h : Filed known) (new : List VideoSource) :
    Filed (admitAll known new).1 := by
  induction new generalizing known with
  | nil => exact h
  | cons source rest ih => exact ih (filed_admitOne h source)

theorem mem_keys_admitAll (new : List VideoSource) :
    id ∈ (admitAll known new).1.keys ↔ id ∈ names new ∨ id ∈ known.keys := by
  induction new generalizing known with
  | nil => simp [admitAll, names]
  | cons source rest ih =>
    show id ∈ (admitAll (admitOne known source).1 rest).1.keys ↔ _
    rw [ih, mem_keys_admitOne]
    simp only [names, List.map_cons, List.mem_cons]
    tauto

theorem mem_names_admitAll (new : List VideoSource) :
    id ∈ names (admitAll known new).2 ↔ id ∈ names new ∧ id ∉ known.keys := by
  induction new generalizing known with
  | nil => simp [admitAll, names]
  | cons source rest ih =>
    show id ∈ names ((admitOne known source).2 ++ (admitAll (admitOne known source).1 rest).2) ↔ _
    rw [names, List.map_append, List.mem_append, ← names, ← names, ih, mem_names_admitOne,
      mem_keys_admitOne]
    simp only [names, List.map_cons, List.mem_cons]
    tauto

theorem filed_update (h : Filed known) : Filed (update known sources).1 :=
  filed_admitAll (filed_kept h) _

/-- Whatever was known, from then on the attendees known are those that the index lists. -/
theorem mem_keys_update : id ∈ (update known sources).1.keys ↔ id ∈ ids sources := by
  show id ∈ (admitAll (kept known sources) (sources.map ofStream)).1.keys ↔ _
  rw [mem_keys_admitAll, mem_keys_kept]
  constructor
  · rintro (hid | ⟨-, hid⟩)
    · exact hid
    · exact mem_ids_of_mem_listed hid
  · exact .inl

/-- A source that names no attendee is new each time it is listed, as it does not count as listed
under the empty identifier. -/
theorem mem_names_added : id ∈ names (update known sources).2 ↔
    id ∈ ids sources ∧ ¬ (id ∈ known.keys ∧ id ∈ listed sources) := by
  show id ∈ names (admitAll (kept known sources) (sources.map ofStream)).2 ↔ _
  rw [mem_names_admitAll, mem_keys_kept]
  exact Iff.rfl

end VideoSources

/-! ## A listener of the news -/

open VideoSources

/-- The attendees that a listener takes to have a source, after one more action. -/
def watch (shown : Finset String) : Action → Finset String
  | .emit (.started _ sources) | .emit (.videoSourcesAvailable sources) =>
    shown ∪ (names sources).toFinset
  | .emit (.videoSourcesUnavailable sources) => shown \ (names sources).toFinset
  | _ => shown

/-- What a listener ends up with that has heard nothing before. -/
def watched (log : List Action) : Finset String := log.foldl watch ∅

theorem watched_append (log more : List Action) :
    watched (log ++ more) = more.foldl watch (watched log) :=
  List.foldl_append ..

theorem watch_of_silent {a : Action} (h : a.isSourceNews = false) (shown : Finset String) :
    watch shown a = shown := by
  cases a with
  | emit event =>
    cases event with
    | started | videoSourcesAvailable | videoSourcesUnavailable =>
      exact absurd h (by simp [Action.isSourceNews])
    | _ => rfl
  | _ => rfl

theorem foldl_watch_of_silent {actions : List Action} (shown : Finset String)
    (h : ∀ a ∈ actions, a.isSourceNews = false) : actions.foldl watch shown = shown := by
  induction actions with
  | nil => rfl
  | cons a rest ih =>
    rw [List.foldl_cons, watch_of_silent (h a List.mem_cons_self)]
    exact ih fun b hb => h b (List.mem_cons_of_mem a hb)

/-- An empty difference is not told, and would have told nothing. -/
theorem foldl_watch_sourceNews (shown : Finset String) (added removed : List VideoSource) :
    (Machine.sourceNews added removed).foldl watch shown =
      (shown ∪ (names added).toFinset) \ (names removed).toFinset := by
  have h_added : (if added.isEmpty then [] else [.emit (.videoSourcesAvailable added)]).foldl
      watch shown = shown ∪ (names added).toFinset := by
    cases added with
    | nil => simp [names]
    | cons source rest => rfl
  have h_removed : ∀ shown : Finset String,
      (if removed.isEmpty then [] else [.emit (.videoSourcesUnavailable removed)]).foldl
        watch shown = shown \ (names removed).toFinset := by
    intro shown
    cases removed with
    | nil => simp [names]
    | cons source rest => rfl
  rw [Machine.sourceNews, List.foldl_append, h_added, h_removed]

namespace Machine

/-! ## What else a machine does leaves the sources alone -/

/-- An outcome that neither changes the sources known nor tells of any. -/
structure Aside (m : Machine) (out : Machine × List Action) : Prop where
  sources : out.1.sources = m.sources
  silent : ∀ a ∈ out.2, a.isSourceNews = false

/-- Only an index that is taken in bears on the sources. -/
theorem aside_step {m : Machine} {input : Input}
    (h : ∀ index now, input.index? = some (index, now) → ¬ m.Admits index) :
    Aside m (m.step input) := by
  have hbearing := bearing_step m input
  generalize m.step input = out at hbearing ⊢
  obtain ⟨next, actions⟩ := out
  cases hbearing with
  | aside standing _ unmarked =>
    exact ⟨congrArg Standing.sources standing,
      fun a ha => Action.isSourceNews_of_unmarked (unmarked a ha)⟩
  | indexed index now brings admits => exact absurd admits (h index now brings)
  | letIn | ponged | pinged | lost => exact ⟨rfl, by simp [Action.isSourceNews]⟩

/-! ## An index that is taken in -/

section Admitted

variable {m : Machine} {input : Input} {index : IndexFrame} {now : Instant}

/-- Whether the news of an index bring a listener up to date that was so before. Later indexes do,
but that a source without an attendee is taken for gone if one was known. The first one of a
connection does not tell who is gone, and tells nothing if the access to the relay has run out. -/
def Conveys (m : Machine) (index : IndexFrame) (now : Instant) : Prop :=
  let known := m.sources.keys
  if m.indexed then ∀ id ∈ known, id ∈ ids index.sources → id ∈ listed index.sources
  else if m.turn.any (·.isExpired now) then ∀ id, id ∈ known ↔ id ∈ ids index.sources
  else ∀ id ∈ known, id ∈ ids index.sources

theorem conveys_of_named (later : m.indexed = true)
    (named : ∀ d ∈ index.sources, d.profileUuid.isSome = true) : m.Conveys index now := by
  rw [Conveys, if_pos later]
  intro id _ hid
  obtain ⟨source, hsource, rfl⟩ := List.mem_map.mp hid
  obtain ⟨d, hd, rfl⟩ := List.mem_map.mp hsource
  obtain ⟨name, hname⟩ := Option.isSome_iff_exists.mp (named d hd)
  exact List.mem_filterMap.mpr ⟨d, hd, by simp [ofStream, hname]⟩

/-- What the news of an index make of a listener who was up to date before. -/
theorem watch_indexNews_iff (filed : Filed m.sources) :
    (m.indexNews index now).foldl watch m.sources.keys.toFinset = (ids index.sources).toFinset ↔
      m.Conveys index now := by
  unfold indexNews Conveys
  dsimp only
  split
  · rw [foldl_watch_sourceNews, Finset.ext_iff]
    apply forall_congr'
    intro id
    have hgone : id ∈ names (m.sources.gone index.sources (m.visits 0)) ↔
        id ∈ m.sources.keys ∧ id ∉ listed index.sources := mem_names_gone filed
    have hlisted := @mem_ids_of_mem_listed index.sources id
    simp only [Finset.mem_sdiff, Finset.mem_union, List.mem_toFinset, mem_names_added, hgone]
    tauto
  · split
    · simp [Finset.ext_iff]
    · rw [Finset.ext_iff]
      apply forall_congr'
      intro id
      show (id ∈ m.sources.keys.toFinset ∪ _ ↔ _) ↔ _
      have hlisted := @mem_ids_of_mem_listed index.sources id
      simp only [Finset.mem_union, List.mem_toFinset, mem_names_added]
      tauto

end Admitted

/-! ## Runs -/

/-- A listener is up to date: those are taken to have a source for whom one is known. -/
structure UpToDate (m : Machine) (shown : Finset String) : Prop where
  filed : Filed m.sources
  same : shown = m.sources.keys.toFinset

theorem UpToDate.aside {m : Machine} {shown : Finset String} (h : UpToDate m shown)
    {input : Input} (haside : ∀ index now, input.index? = some (index, now) → ¬ m.Admits index) :
    UpToDate (m.step input).1 ((m.step input).2.foldl watch shown) := by
  obtain ⟨hsources, hsilent⟩ := aside_step haside
  rw [foldl_watch_of_silent shown hsilent]
  exact ⟨hsources ▸ h.filed, hsources ▸ h.same⟩

/-- Once an index is taken in, up to date means: those are shown whom it lists. -/
theorem UpToDate.admitted {m : Machine} {shown : Finset String} (h : UpToDate m shown)
    {input : Input} {index : IndexFrame} {now : Instant}
    (hindex : input.index? = some (index, now)) (hadmits : m.Admits index) :
    ((m.step input).2.foldl watch shown = (ids index.sources).toFinset ↔ m.Conveys index now) ∧
      (m.Conveys index now →
        UpToDate (m.step input).1 ((m.step input).2.foldl watch shown)) := by
  have hnews : (m.step input).2.foldl watch shown = (ids index.sources).toFinset ↔
      m.Conveys index now := by
    rw [step_of_admits hindex hadmits, onIndex_of_admits hadmits, h.same]
    exact watch_indexNews_iff h.filed
  refine ⟨hnews, fun hconveys => ?_⟩
  rw [hnews.mpr hconveys, step_of_admits hindex hadmits, onIndex_of_admits hadmits]
  refine ⟨filed_update h.filed, ?_⟩
  ext id
  rw [List.mem_toFinset, List.mem_toFinset]
  exact mem_keys_update.symm

theorem forall_prefix_concat {α : Type} {P : List α → α → Prop} {all : List α} {last : α} :
    (∀ past a, past ++ [a] <+: all ++ [last] → P past a) ↔
      (∀ past a, past ++ [a] <+: all → P past a) ∧ P all last := by
  constructor
  · intro h
    exact ⟨fun past a hpast => h past a (hpast.trans (List.prefix_append all [last])),
      h all last (List.prefix_refl _)⟩
  · rintro ⟨hpast, hlast⟩ past a h
    rcases List.prefix_concat_iff.mp h with heq | h
    · obtain ⟨rfl, rfl⟩ := List.append_singleton_inj.mp heq
      exact hlast
    · exact hpast past a h

theorem upToDate_run (m : Machine) (inputs : List Input) (h : UpToDate m ∅) :
    ((∀ past input, past ++ [input] <+: inputs →
        ∀ index now, input.index? = some (index, now) → (m.run past).1.Admits index →
          watched (m.run (past ++ [input])).2.flatten = (ids index.sources).toFinset) ↔
      (∀ past input, past ++ [input] <+: inputs →
        ∀ index now, input.index? = some (index, now) → (m.run past).1.Admits index →
          (m.run past).1.Conveys index now)) ∧
    ((∀ past input, past ++ [input] <+: inputs →
        ∀ index now, input.index? = some (index, now) → (m.run past).1.Admits index →
          (m.run past).1.Conveys index now) →
      UpToDate (m.run inputs).1 (watched (m.run inputs).2.flatten)) := by
  induction inputs using List.reverseRecOn with
  | nil =>
    refine ⟨?_, fun _ => h⟩
    constructor <;> intro _ past input hpast <;>
      exact absurd (List.prefix_nil.mp hpast) (by simp)
  | append_singleton inputs input ih =>
    obtain ⟨hiff, hrun⟩ := ih
    -- up to the last input the two sides agree, and if they hold the listener is up to date there
    rw [forall_prefix_concat, forall_prefix_concat, hiff]
    simp only [run_concat, List.flatten_append, List.flatten_singleton, watched_append]
    constructor
    · apply and_congr_right
      intro hpast
      have hdate := hrun hpast
      constructor
      · intro hnews index now hindex hadmits
        exact (hdate.admitted hindex hadmits).1.mp (hnews index now hindex hadmits)
      · intro hconveys index now hindex hadmits
        exact (hdate.admitted hindex hadmits).1.mpr (hconveys index now hindex hadmits)
    · rintro ⟨hpast, hlast⟩
      have hdate := hrun hpast
      by_cases hadmitted : ∃ index now, input.index? = some (index, now) ∧
          (m.run inputs).1.Admits index
      · obtain ⟨index, now, hindex, hadmits⟩ := hadmitted
        exact (hdate.admitted hindex hadmits).2 (hlast index now hindex hadmits)
      · apply hdate.aside
        intro index now hindex hadmits
        exact hadmitted ⟨index, now, hindex, hadmits⟩

/-- **When the news mirror the indexes**: in a run of a new machine, a listener takes those to have
a source whom each index that was taken in lists, exactly if the news of each of them convey it. -/
theorem mirrored_iff_conveyed (descriptor : Descriptor) (config : SignalingConfig)
    (offerId : UInt64) (visits : VideoSources.Visits) (inputs : List Input) :
    let m := new descriptor config offerId visits
    (∀ past input, past ++ [input] <+: inputs →
      ∀ index now, input.index? = some (index, now) → (m.run past).1.Admits index →
        watched (m.run (past ++ [input])).2.flatten = (ids index.sources).toFinset) ↔
    (∀ past input, past ++ [input] <+: inputs →
      ∀ index now, input.index? = some (index, now) → (m.run past).1.Admits index →
        (m.run past).1.Conveys index now) := by
  intro m
  have hnew : UpToDate m ∅ := ⟨by simp [Filed, m, new], rfl⟩
  exact (upToDate_run m inputs hnew).1

/-- A source that is gone when the client is back after a loss of its connection is shown for good.
-/
theorem not_mirrored_after_return :
    let descriptor : Descriptor :=
      { meetingId := "m", externalMeetingId := "", credentials := ⟨"a", "", "t"⟩
        audioHostUrl := "", signalingUrl := ⟨"ws://h", by decide⟩ }
    let m := new descriptor {} 0
    let joinAck : Input := .message [0x02, 0x08, 0x00, 0x10, 0x02] 0
    let indexOfA : Input :=
      .message [0x02, 0x08, 0x00, 0x10, 0x05, 0x3a, 0x05, 0x12, 0x03, 0x42, 0x01, 0x61] 0
    let emptyIndex : Input := .message [0x02, 0x08, 0x00, 0x10, 0x05, 0x3a, 0x00] 0
    let past : List Input :=
      [.start, .transportUp, joinAck, indexOfA, .transportLost, .transportUp, joinAck]
    ∃ index, emptyIndex.index? = some (index, 0) ∧ (m.run past).1.Admits index ∧
      (ids index.sources).toFinset = ∅ ∧
      watched (m.run (past ++ [emptyIndex])).2.flatten = {"a"} := by
  intro descriptor m joinAck indexOfA emptyIndex past
  exact ⟨{}, rfl, ⟨rfl, by decide⟩, rfl, rfl⟩

end Machine

end Parley
