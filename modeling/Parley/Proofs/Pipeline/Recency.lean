import Parley.Proofs.Pipeline.Apart

/-!
# `Parley/Proofs/Pipeline/Recency.lean` — which streams are kept

A receiver keeps the streams that it heard last, as many of them as it may and one in any case. Each
hearing is dated later than all before it (`Streams.Dated`), so that the one heard least recently can
be told by the dates alone, in whatever order the table of the streams is gone through. A file is
open only while its stream is kept (`Recorder.OpenFor`): it is opened by what the stream plays, and
closed when the stream is given up.
-/

set_option autoImplicit false

namespace Parley

open Parley.Rtp JitterBuffer
open scoped List

namespace Streams

/-! ## Sources by their last hearing -/

/-- The sources heard, the one heard last first. -/
def ranking (heard : List UInt32) : List UInt32 := heard.dedup.reverse

theorem dedup_concat (heard : List UInt32) (ssrc : UInt32) :
    (heard ++ [ssrc]).dedup = heard.dedup.filter (· != ssrc) ++ [ssrc] := by
  induction heard with
  | nil => rfl
  | cons first rest ih =>
    rw [List.cons_append]
    by_cases hmem : first ∈ rest
    · rw [List.dedup_cons_of_mem (List.mem_append_left _ hmem), List.dedup_cons_of_mem hmem, ih]
    · by_cases hsame : first = ssrc
      · have hlast : first ∈ rest ++ [ssrc] := by simp [hsame]
        rw [List.dedup_cons_of_mem hlast, List.dedup_cons_of_notMem hmem, ih,
          List.filter_cons_of_neg (by simp [hsame])]
      · have hnew : first ∉ rest ++ [ssrc] := by simp [hmem, hsame]
        rw [List.dedup_cons_of_notMem hnew, List.dedup_cons_of_notMem hmem, ih,
          List.filter_cons_of_pos (by simpa using hsame), List.cons_append]

theorem ranking_concat (heard : List UInt32) (ssrc : UInt32) :
    ranking (heard ++ [ssrc]) = ssrc :: (ranking heard).filter (· != ssrc) := by
  rw [ranking, dedup_concat, List.reverse_append, ranking, List.filter_reverse]
  rfl

example : ranking [1, 2, 1, 3] = [3, 1, 2] := by decide

theorem nodup_ranking (heard : List UInt32) : (ranking heard).Nodup :=
  List.nodup_reverse.mpr (List.nodup_dedup heard)

/-- To go without one member takes away one place at most. -/
theorem take_filter {ranked : List UInt32} (h : ranked.Nodup) (ssrc : UInt32) (places : Nat) :
    (ranked.filter (· != ssrc)).take places =
      ((ranked.take (places + 1)).filter (· != ssrc)).take places := by
  induction ranked generalizing places with
  | nil => rfl
  | cons first rest ih =>
    obtain ⟨hfirst, hrest⟩ := List.nodup_cons.mp h
    rw [List.take_succ_cons]
    by_cases hsame : first = ssrc
    · have hkept : ∀ e ∈ rest, (e != ssrc) = true := by
        intro e he
        simpa using fun heq : e = ssrc => hfirst (hsame.trans heq.symm ▸ he)
      have hkept' : ∀ e ∈ rest.take places, (e != ssrc) = true := fun e he =>
        hkept e (List.mem_of_mem_take he)
      rw [List.filter_cons_of_neg (by simp [hsame]), List.filter_cons_of_neg (by simp [hsame]),
        List.filter_eq_self.mpr hkept, List.filter_eq_self.mpr hkept', List.take_take,
        Nat.min_self]
    · rw [List.filter_cons_of_pos (by simpa using hsame),
        List.filter_cons_of_pos (by simpa using hsame)]
      cases places with
      | zero => rfl
      | succ places => rw [List.take_succ_cons, List.take_succ_cons, ih hrest]

/-- What is kept of a ranking stays so if another hearing comes. One of those kept goes if all
places are taken and the source heard has none. -/
theorem take_ranking_concat (heard : List UInt32) (ssrc : UInt32) (limit : Nat) :
    let kept := (ranking heard).take (max limit 1)
    ssrc :: (if ssrc ∈ kept ∨ kept.length < limit then kept else kept.dropLast).filter (· != ssrc) =
      (ranking (heard ++ [ssrc])).take (max limit 1) := by
  intro kept
  obtain ⟨places, hplaces⟩ : ∃ places, max limit 1 = places + 1 :=
    ⟨max limit 1 - 1, by omega⟩
  have hkept : kept = (ranking heard).take (places + 1) := hplaces ▸ rfl
  have hlength : kept.length ≤ places + 1 := by
    rw [hkept, List.length_take]
    exact Nat.min_le_left _ _
  rw [ranking_concat, hplaces, List.take_succ_cons, take_filter (nodup_ranking heard), ← hkept]
  refine congrArg (ssrc :: ·) ?_
  split
  · rename_i hroom
    refine (List.take_of_length_le ?_).symm
    rcases hroom with hmem | hfew
    · have hlt : (kept.filter (· != ssrc)).length < kept.length :=
        List.length_filter_lt_length_iff_exists.mpr ⟨ssrc, hmem, by simp⟩
      omega
    · have hle := List.length_filter_le (· != ssrc) kept
      omega
  · rename_i hfull
    obtain ⟨hnew, hmany⟩ := not_or.mp hfull
    have hself : ∀ e ∈ kept, (e != ssrc) = true := by
      intro e he
      simpa using fun heq : e = ssrc => hnew (heq ▸ he)
    have hlast : kept.length - 1 = places := by omega
    rw [List.filter_eq_self.mpr hself,
      List.filter_eq_self.mpr fun e he => hself e (List.dropLast_subset kept he),
      List.dropLast_eq_take, hlast]

/-! ## Streams by their dates -/

/-- The streams stand in the order of their last hearings, and none was heard in the future. -/
structure Dated (s : Streams) : Prop where
  descending : s.table.entries.Pairwise fun e later => later.2.lastHeard < e.2.lastHeard
  past : ∀ e ∈ s.table.entries, e.2.lastHeard ≤ s.heard

variable {config : ReceiverConfig} {s : Streams} {ssrc : UInt32}
  {entries streams : List (UInt32 × RemoteStream)}

/-- No two dates are the same, so that it makes no difference in which order the table is gone
through: the choice falls on the stream that stands last. -/
theorem leastRecent_eq_getLast?
    (h : streams.Pairwise fun e later => later.2.lastHeard < e.2.lastHeard)
    (hperm : entries.Perm streams) : Receiver.leastRecent entries = streams.getLast? := by
  rcases List.eq_nil_or_concat streams with rfl | ⟨rest, last, rfl⟩
  · rw [hperm.eq_nil]
    rfl
  · have hlast : last ∈ entries := hperm.mem_iff.mpr (by simp)
    obtain ⟨e, he, hleast, hmin⟩ := leastRecent_spec (List.ne_nil_of_mem hlast)
    rw [hleast, List.concat_eq_append, List.getLast?_concat]
    refine congrArg some ?_
    rcases List.mem_append.mp (List.concat_eq_append ▸ hperm.mem_iff.mp he) with hrest | hmem
    · rw [List.concat_eq_append] at h
      have hlt := (List.pairwise_append.mp h).2.2 e hrest last (by simp)
      have hle := hmin last hlast
      omega
    · exact List.mem_singleton.mp hmem

theorem dated_new : Dated {} := ⟨.nil, by simp⟩

theorem Dated.erase (h : s.Dated) (ssrc : UInt32) : Dated { s with table := s.table.erase ssrc } :=
  ⟨h.descending.filter _, fun e he => h.past e (List.mem_filter.mp he).1⟩

theorem Dated.hear (h : s.Dated) (frame : Frame) : (s.hear config frame).1.Dated := by
  have hothers := h.erase frame.ssrc
  refine ⟨List.pairwise_cons.mpr ⟨fun e he => ?_, hothers.descending⟩, fun e he => ?_⟩
  · exact Nat.lt_succ_of_le (hothers.past e he)
  · rcases List.mem_cons.mp he with rfl | he
    · exact Nat.le_refl _
    · exact Nat.le_succ_of_le (hothers.past e he)

theorem Sorted.erase (h : s.Sorted config) (ssrc : UInt32) :
    Sorted config { s with table := s.table.erase ssrc } := by
  refine ⟨h.sound.erase ssrc, fun other f hf => ?_⟩
  by_cases hsame : other = ssrc
  · -- a stream that was given up holds nothing
    simp only [buffer, hsame, Table.get?_erase_self] at hf
    cases hf
  · refine h.own other f ?_
    simpa only [buffer, Table.get?_erase_of_ne _ hsame] using hf

theorem Sorted.hear (h : s.Sorted config) (frame : Frame) : (s.hear config frame).1.Sorted config :=
  (apart_hear h frame).sorted

/-- The stream that is given up is the one that stands last. What is played of it is its own, and
then its file is closed. -/
theorem evict_spec (h : s.Sorted config) (hdated : s.Dated) (hsome : s.table.entries ≠ []) :
    ∃ ssrc ∈ s.table.keys, ∃ (frames : List Frame) (buffer : JitterBuffer),
      s.evict = ({ s with table := s.table.erase ssrc }, frames.map .play ++ [.retire ssrc buffer]) ∧
      (∀ f ∈ frames, f.ssrc = ssrc) ∧ (s.table.erase ssrc).keys = s.table.keys.dropLast := by
  obtain ⟨e, he, hleast, -⟩ := leastRecent_spec hsome
  obtain ⟨ssrc, stream⟩ := e
  have hlast : s.table.entries.getLast? = some (ssrc, stream) :=
    (leastRecent_eq_getLast? hdated.descending (.refl _)).symm.trans hleast
  have hbuffer : s.buffer config ssrc = stream.jitter := by
    simp [buffer, (Table.mem_entries_iff h.sound.unique).mp he]
  refine ⟨ssrc, List.mem_map_of_mem he, stream.jitter.drain.1, stream.jitter.drain.2, ?_, ?_, ?_⟩
  · rw [evict, hleast]
  · intro f hf
    exact h.own ssrc f (hbuffer ▸ hf)
  · -- each source has one stream, so that no other goes with the last
    obtain ⟨rest, hentries⟩ := List.getLast?_eq_some_iff.mp hlast
    have hnodup := h.sound.unique.nodup_keys
    rw [Table.keys, hentries, List.map_append, List.map_singleton] at hnodup
    rw [Table.keys_erase, Table.keys, hentries, List.map_append, List.map_singleton,
      List.dropLast_concat, List.filter_append, List.filter_cons_of_neg (by simp),
      List.filter_nil, List.append_nil]
    refine List.filter_eq_self.mpr fun k hk => ?_
    have hne := (List.nodup_append.mp hnodup).2.2 k hk ssrc (by simp)
    simpa using hne

end Streams

/-! ## Files of the streams that are kept -/

namespace Recorder

/-- Only files of these sources are open. -/
structure OpenFor (sources : List UInt32) (r : Recorder) : Prop where
  unique : r.pending.Unique
  within : r.pending.keys ⊆ sources

variable {sources more : List UInt32} {r : Recorder} {ssrc : UInt32}

theorem OpenFor.mono (h : r.OpenFor sources) (hmore : sources ⊆ more) : r.OpenFor more :=
  ⟨h.unique, List.Subset.trans h.within hmore⟩

theorem OpenFor.openFiles_le (h : r.OpenFor sources) : r.openFiles ≤ sources.length := by
  have hlength := (List.subperm_of_subset h.unique.nodup_keys h.within).length_le
  rwa [Table.keys, List.length_map] at hlength

theorem OpenFor.mem_of_isOpen (h : r.OpenFor sources) (hopen : r.isOpen ssrc = true) :
    ssrc ∈ sources := h.within (Table.contains_iff.mp hopen)

theorem OpenFor.insert (h : r.OpenFor sources) (hssrc : ssrc ∈ sources) {q : Recorder}
    {bytes : Octets} (hq : q.pending = r.pending.insert ssrc bytes) : q.OpenFor sources := by
  refine ⟨hq ▸ h.unique.insert ssrc bytes, fun k hk => ?_⟩
  rw [hq, Table.mem_keys_insert] at hk
  rcases hk with rfl | hk
  · exact hssrc
  · exact h.within hk

/-- A writing opens no other file than its own, whether or not it goes well. -/
theorem OpenFor.write (h : r.OpenFor sources) (hssrc : ssrc ∈ sources) (samples : List Int16) :
    (r.write ssrc samples).2.OpenFor sources := by
  have hopened : (r.counted.opened ssrc).OpenFor sources := by
    rw [opened]
    split
    · exact ⟨h.unique, h.within⟩
    · exact h.insert hssrc pending_openFile
  unfold Recorder.write
  dsimp only
  split
  · exact ⟨h.unique, h.within⟩
  · split
    · exact hopened
    · exact hopened.insert hssrc rfl

/-- A file that is closed is not open, and no other is opened. -/
theorem OpenFor.close (h : r.OpenFor sources) (ssrc : UInt32) :
    (r.close ssrc).OpenFor (sources.filter (· != ssrc)) := by
  have hpending : (r.close ssrc).pending = r.pending.erase ssrc := by
    unfold Recorder.close
    split
    · rename_i hnone
      exact (Table.erase_of_get?_eq_none hnone).symm
    · rfl
  refine ⟨hpending ▸ h.unique.erase ssrc, ?_⟩
  rw [hpending, Table.keys_erase]
  exact List.filter_subset _ h.within

end Recorder

namespace Receiver

variable {r : Receiver} {sources heard : List UInt32}

theorem openFor_play (h : r.recorder.OpenFor sources) {frame : Frame}
    (hssrc : frame.ssrc ∈ sources) : (r.play frame).recorder.OpenFor sources := by
  rw [recorder_play, writeOf?]
  cases heardAs frame with
  | none => exact h
  | some samples => exact h.write hssrc samples

theorem openFor_playAll (h : r.recorder.OpenFor sources) {frames : List Frame}
    (hssrcs : ∀ f ∈ frames, f.ssrc ∈ sources) : (r.playAll frames).recorder.OpenFor sources := by
  induction frames generalizing r with
  | nil => exact h
  | cons frame rest ih =>
    have hfirst := openFor_play h (hssrcs frame List.mem_cons_self)
    exact ih hfirst fun f hf => hssrcs f (List.mem_cons_of_mem _ hf)

/-- A receiver between two packets: its streams are in order, and only they have open files. -/
structure Tidy (r : Receiver) : Prop where
  sorted : r.side.Sorted r.config
  dated : r.side.Dated
  files : r.recorder.OpenFor r.streams.keys

theorem streams_follow (out : Streams × List Order) : (r.follow out).streams = out.1.table :=
  congrArg Streams.table (side_follow r out)

theorem recorder_follow (out : Streams × List Order) :
    (r.follow out).recorder = (r.performAll out.2).recorder := by
  rw [follow, performAll_withSide]
  rfl

theorem tidy_follow {out : Streams × List Order} (hsorted : out.1.Sorted r.config)
    (hdated : out.1.Dated) (hfiles : (r.performAll out.2).recorder.OpenFor out.1.table.keys) :
    (r.follow out).Tidy := by
  refine ⟨?_, ?_, ?_⟩
  · rwa [side_follow, config_follow]
  · rwa [side_follow]
  · rwa [streams_follow, recorder_follow]

theorem Tidy.evict (h : r.Tidy) :
    r.evict.Tidy ∧ r.evict.streams.keys = r.streams.keys.dropLast := by
  rw [evict_eq, streams_follow]
  by_cases hempty : r.side.table.entries = []
  · have hside : r.side.evict = (r.side, []) := by
      rw [Streams.evict, hempty]
      rfl
    have hkeys : r.side.table.keys = [] := by
      rw [Table.keys, hempty]
      rfl
    refine ⟨hside ▸ h, ?_⟩
    rw [hside, show r.streams.keys = [] from hkeys]
    exact hkeys
  · obtain ⟨ssrc, hssrc, frames, buffer, hevict, hown, hkeys⟩ :=
      Streams.evict_spec h.sorted h.dated hempty
    rw [hevict]
    refine ⟨tidy_follow (h.sorted.erase ssrc) (h.dated.erase ssrc) ?_, hkeys⟩
    have hplayed : (r.playAll frames).recorder.OpenFor r.streams.keys :=
      openFor_playAll h.files fun f hf => hown f hf ▸ hssrc
    rw [performAll_append, performAll_play, Table.keys_erase]
    exact hplayed.close ssrc

theorem Tidy.hear (h : r.Tidy) (frame : Frame) :
    (r.follow (r.side.hear r.config frame)).Tidy ∧
      (r.follow (r.side.hear r.config frame)).streams.keys =
        frame.ssrc :: r.streams.keys.filter (· != frame.ssrc) := by
  have hkeys : (r.side.hear r.config frame).1.table.keys =
      frame.ssrc :: r.streams.keys.filter (· != frame.ssrc) := Table.keys_insert ..
  refine ⟨tidy_follow (h.sorted.hear frame) (h.dated.hear frame) ?_, ?_⟩
  · have hmore : r.streams.keys ⊆ (r.side.hear r.config frame).1.table.keys := fun k hk =>
      Table.mem_keys_insert.mpr (Or.inr hk)
    have hnew : frame.ssrc ∈ (r.side.hear r.config frame).1.table.keys :=
      Table.mem_keys_insert.mpr (Or.inl rfl)
    refine (performAll_play r _).symm ▸ openFor_playAll (h.files.mono hmore) fun f hf => ?_
    exact h.sorted.pass_own frame (Or.inl hf) ▸ hnew
  · rw [streams_follow, hkeys]

theorem onFrame_eq_hear (r : Receiver) (frame : Frame) :
    r.onFrame frame = (r.roomFor frame.ssrc).follow
      ((r.roomFor frame.ssrc).side.hear (r.roomFor frame.ssrc).config frame) := by
  rw [onFrame_eq, ← follow_andThen, ← roomFor_eq, roomFor_eq, config_follow]

theorem Tidy.roomFor (h : r.Tidy) (ssrc : UInt32) :
    (r.roomFor ssrc).Tidy ∧
      (r.roomFor ssrc).streams.keys =
        if ssrc ∈ r.streams.keys ∨ r.streams.keys.length < r.config.maxRemoteStreams then
          r.streams.keys
        else r.streams.keys.dropLast := by
  have hfull : (!r.streams.contains ssrc && r.config.maxRemoteStreams ≤ r.streams.size) = true ↔
      ¬ (ssrc ∈ r.streams.keys ∨ r.streams.keys.length < r.config.maxRemoteStreams) := by
    rw [Bool.and_eq_true, Bool.not_eq_true', ← Bool.not_eq_true, decide_eq_true_eq,
      Table.contains_iff, not_or, Nat.not_lt, Table.keys, List.length_map]
    rfl
  unfold Receiver.roomFor
  split
  · rename_i hnone
    rw [if_neg (hfull.mp hnone)]
    exact h.evict
  · rename_i hroom
    rw [if_pos (Decidable.not_not.mp (mt hfull.mpr hroom))]
    exact ⟨h, rfl⟩

/-! ## The streams heard last -/

/-- A receiver that keeps the streams it heard last. -/
structure Keeps (heard : List UInt32) (r : Receiver) : Prop where
  tidy : r.Tidy
  keys : r.streams.keys = (Streams.ranking heard).take (max r.config.maxRemoteStreams 1)

theorem keeps_new (config : ReceiverConfig) (faults : FaultPlan) (old : Table UInt32 Octets) :
    Keeps [] { config, recorder := { faults, files := old } } := by
  refine ⟨⟨Streams.sorted_new config, Streams.dated_new, Table.unique_empty, ?_⟩, ?_⟩
  · exact List.nil_subset _
  · exact List.take_nil.symm

theorem Keeps.onFrame (h : r.Keeps heard) (frame : Frame) :
    (r.onFrame frame).Keeps (heard ++ [frame.ssrc]) := by
  obtain ⟨htidy, hkeys⟩ := h.tidy.roomFor frame.ssrc
  obtain ⟨htidy', hkeys'⟩ := htidy.hear frame
  have hconfig : (r.roomFor frame.ssrc).config = r.config := by
    rw [roomFor_eq, config_follow]
  rw [onFrame_eq_hear]
  refine ⟨htidy', ?_⟩
  rw [hkeys', hkeys, config_follow, hconfig, h.keys]
  exact Streams.take_ranking_concat heard frame.ssrc r.config.maxRemoteStreams

theorem Keeps.decodeFailed (h : r.Keeps heard) : r.decodeFailed.Keeps heard := by
  have hfiles : (r.performAll [.garbled]).recorder.OpenFor r.streams.keys :=
    (recorder_decodeFailed r).symm ▸ h.tidy.files
  have hfollow : r.decodeFailed = r.follow (r.side, [.garbled]) := rfl
  rw [hfollow]
  refine ⟨tidy_follow h.tidy.sorted h.tidy.dated hfiles, ?_⟩
  rw [streams_follow, config_follow]
  exact h.keys

theorem onPacket_eq_onFrame (r : Receiver) (packet : Octets) :
    r.onPacket packet =
      match frameOf? packet with
      | none => { r with received := r.received + 1 }.decodeFailed
      | some frame => { r with received := r.received + 1 }.onFrame frame := by
  unfold onPacket frameOf?
  cases Packet.decode packet with
  | error e => rfl
  | ok body => rfl

theorem Keeps.take (h : r.Keeps heard) (packet : Bool × Octets) :
    (r.take packet.1 packet.2).Keeps (heard ++ (Streams.carried packet).map (·.ssrc)) := by
  obtain ⟨joined, bytes⟩ := packet
  cases joined with
  | false => exact (List.append_nil heard).symm ▸ h
  | true =>
    have hcounted : Keeps heard { r with received := r.received + 1 } :=
      ⟨⟨⟨⟨h.tidy.sorted.sound.unique, h.tidy.sorted.sound.ordered⟩, h.tidy.sorted.own⟩,
        ⟨h.tidy.dated.descending, h.tidy.dated.past⟩, h.tidy.files⟩, h.keys⟩
    show (r.onPacket bytes).Keeps (heard ++ (frameOf? bytes).toList.map (·.ssrc))
    rw [onPacket_eq_onFrame]
    cases frameOf? bytes with
    | none => exact (List.append_nil heard).symm ▸ hcounted.decodeFailed
    | some frame => exact hcounted.onFrame frame

theorem keeps_takes (config : ReceiverConfig) (faults : FaultPlan) (old : Table UInt32 Octets)
    (packets : List (Bool × Octets)) :
    Keeps ((packets.flatMap Streams.carried).map (·.ssrc))
      (packets.foldl (fun r p => r.take p.1 p.2)
        { config, recorder := { faults, files := old } }) := by
  induction packets using List.reverseRecOn with
  | nil => exact keeps_new config faults old
  | append_singleton packets packet ih =>
    rw [List.foldl_append, List.flatMap_append, List.map_append, List.flatMap_singleton]
    exact ih.take packet

/-- **The streams heard last are kept.** Whatever packets come and whatever the storage does: there
is a stream for each of the sources heard last, as many of them as may be kept or one, and for no
other; only they have open files; and the stream to be given up next is that of the source among
them which was heard longest ago, in whatever order the table of the streams is gone through. -/
theorem keeps_heard_last (config : ReceiverConfig) (faults : FaultPlan)
    (old : Table UInt32 Octets) (packets : List (Bool × Octets)) :
    let r := packets.foldl (fun r p => r.take p.1 p.2)
      ({ config, recorder := { faults, files := old } } : Receiver)
    let heard := (packets.flatMap Streams.carried).map (·.ssrc)
    let recent := (Streams.ranking heard).take (max config.maxRemoteStreams 1)
    r.streams.keys.Perm recent ∧
    (∀ ssrc, r.recorder.isOpen ssrc = true → ssrc ∈ recent) ∧
    r.recorder.openFiles ≤ max config.maxRemoteStreams 1 ∧
    ∀ entries, entries.Perm r.streams.entries →
      leastRecent entries = leastRecent r.streams.entries ∧
      (leastRecent entries).map (·.1) = recent.getLast? := by
  intro r heard recent
  obtain ⟨htidy, hkeys⟩ : r.Keeps heard := keeps_takes config faults old packets
  have hconfig : r.config = config :=
    (congrArg Receiver.config (takes_eq _ packets)).trans (config_follow _ _)
  have hrecent : r.streams.keys = recent := by rw [hkeys, hconfig]
  have hfiles : r.recorder.OpenFor recent := hrecent ▸ htidy.files
  have hchosen : ∀ entries, entries.Perm r.streams.entries →
      leastRecent entries = r.streams.entries.getLast? :=
    fun _ hperm => Streams.leastRecent_eq_getLast? htidy.dated.descending hperm
  refine ⟨.of_eq hrecent, fun ssrc hopen => hfiles.mem_of_isOpen hopen, ?_, fun entries hperm => ?_⟩
  · exact Nat.le_trans hfiles.openFiles_le (List.length_take_le _ _)
  · refine ⟨(hchosen entries hperm).trans (hchosen _ (.refl _)).symm, ?_⟩
    rw [hchosen entries hperm, ← hrecent, Table.keys, List.getLast?_map]

end Receiver

end Parley
