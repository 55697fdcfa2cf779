import Mathlib.Data.List.Dedup
import Parley.Proofs.Pipeline.Accounts
import Parley.Proofs.Rtp.Passage
import Parley.Proofs.Storage.Tape

/-!
# `Parley/Proofs/Pipeline/Apart.lean` — streams do not bear on each other

The streams of a receiver share one table, one counter of packets and one recorder. As long as there
is room for all of them, none is given up, and each goes its own way: what is played of a source is
what a jitter buffer of its own makes of the frames of that source (`Streams.Apart`), and what is
recorded of it depends on what is played of it. So the file of a source is the one that there would
be if nothing else had been received (`files_apart`), in whatever order the streams are played out
at the end.
-/

set_option autoImplicit false

namespace Parley

open Parley.Rtp JitterBuffer
open scoped List

namespace Rtp.JitterBuffer

theorem passAll_append (b : JitterBuffer) (frames more : List Frame) :
    b.passAll (frames ++ more) =
      ((b.passAll frames).1 ++ ((b.passAll frames).2.passAll more).1,
        ((b.passAll frames).2.passAll more).2) := by
  induction frames generalizing b with
  | nil => rfl
  | cons frame rest ih =>
    have hrest := ih (b.pass frame).2
    have happend := congrArg (fun out => ((b.pass frame).1 ++ out.1, out.2)) hrest
    refine happend.trans ?_
    simp only [passAll, List.append_assoc]

/-- What goes out of a buffer and what it holds then was held before or is the frame taken in. -/
theorem pass_subset {b : JitterBuffer} (h : b.Ordered) (frame : Frame) {f : Frame}
    (hf : f ∈ (b.pass frame).1 ∨ f ∈ (b.pass frame).2.held) : f = frame ∨ f ∈ b.held := by
  have hperm := (releases_popAll (ordered_push h frame)).2.perm
  have hmem : f ∈ (b.push frame).held := hperm.mem_iff.mpr (List.mem_append.mpr hf)
  exact List.mem_cons.mp ((keeps_push b frame).subperm.subset hmem)

end Rtp.JitterBuffer

/-- The frames of one source. -/
def fromSource (ssrc : UInt32) (frames : List Frame) : List Frame :=
  frames.filter (·.ssrc == ssrc)

theorem fromSource_append (ssrc : UInt32) (frames more : List Frame) :
    fromSource ssrc (frames ++ more) = fromSource ssrc frames ++ fromSource ssrc more :=
  List.filter_append ..

theorem fromSource_eq_self {ssrc : UInt32} {frames : List Frame}
    (h : ∀ f ∈ frames, f.ssrc = ssrc) : fromSource ssrc frames = frames :=
  List.filter_eq_self.mpr fun f hf => beq_iff_eq.mpr (h f hf)

theorem fromSource_eq_nil {ssrc other : UInt32} {frames : List Frame}
    (h : ∀ f ∈ frames, f.ssrc = other) (hne : other ≠ ssrc) : fromSource ssrc frames = [] := by
  refine List.filter_eq_nil_iff.mpr fun f hf => ?_
  rw [h f hf]
  simpa using hne

theorem fromSource_singleton_self (frame : Frame) : fromSource frame.ssrc [frame] = [frame] :=
  fromSource_eq_self fun _ hf => congrArg Frame.ssrc (List.mem_singleton.mp hf)

theorem fromSource_singleton_of_ne {ssrc : UInt32} {frame : Frame} (h : ssrc ≠ frame.ssrc) :
    fromSource ssrc [frame] = [] :=
  fromSource_eq_nil (fun _ hf => congrArg Frame.ssrc (List.mem_singleton.mp hf)) h.symm

def Order.isRetire : Order → Bool
  | .retire _ _ => true
  | _ => false

namespace Streams

variable (config : ReceiverConfig) {s : Streams} {ssrc other : UInt32}

/-- The buffers are in order, and each holds frames of its own source. -/
structure Sorted (s : Streams) : Prop where
  sound : s.Sound
  own : ∀ ssrc, ∀ f ∈ (s.buffer config ssrc).held, f.ssrc = ssrc

/-- The streams are given frames and give up no stream: of every source there is played what its
buffer lets go as the frames of that source pass through it. -/
structure Apart (given : List Frame) (s : Streams) (out : Streams × List Order) : Prop where
  sorted : out.1.Sorted config
  buffer : ∀ ssrc, out.1.buffer config ssrc =
    ((s.buffer config ssrc).passAll (fromSource ssrc given)).2
  plays : ∀ ssrc, fromSource ssrc (plays out.2) =
    ((s.buffer config ssrc).passAll (fromSource ssrc given)).1
  keys : ∀ ssrc ∈ out.1.table.keys, ssrc ∈ s.table.keys ∨ ∃ f ∈ given, f.ssrc = ssrc
  calm : ∀ order ∈ out.2, order.isRetire = false

theorem sorted_new : Sorted config {} := by
  refine ⟨sound_new, fun ssrc f hf => ?_⟩
  cases hf

variable {config}

theorem Apart.refl (h : s.Sorted config) : Apart config [] s (s, []) := by
  refine ⟨h, fun ssrc => rfl, fun ssrc => rfl, fun ssrc hmem => Or.inl hmem, fun order hmem => ?_⟩
  cases hmem

theorem Apart.andThen {given more : List Frame} {out : Streams × List Order}
    {next : Streams → Streams × List Order} (h : Apart config given s out)
    (hnext : Apart config more out.1 (next out.1)) :
    Apart config (given ++ more) s (Streams.andThen out next) := by
  refine ⟨hnext.sorted, fun ssrc => ?_, fun ssrc => ?_, fun ssrc hmem => ?_,
    fun order hmem => ?_⟩
  · rw [fromSource_append, passAll_append, ← h.buffer ssrc]
    exact hnext.buffer ssrc
  · rw [fromSource_append, passAll_append, ← h.buffer ssrc, ← h.plays ssrc, ← hnext.plays ssrc]
    show fromSource ssrc (Streams.plays (out.2 ++ (next out.1).2)) = _
    rw [plays_append, fromSource_append]
  · rcases hnext.keys ssrc hmem with hkey | ⟨f, hf, hssrc⟩
    · rcases h.keys ssrc hkey with hkey | ⟨f, hf, hssrc⟩
      · exact Or.inl hkey
      · exact Or.inr ⟨f, List.mem_append_left _ hf, hssrc⟩
    · exact Or.inr ⟨f, List.mem_append_right _ hf, hssrc⟩
  · rcases List.mem_append.mp hmem with hfirst | hsecond
    · exact h.calm order hfirst
    · exact hnext.calm order hsecond

theorem buffer_insert_self (stream : RemoteStream) (heard : Nat) :
    buffer config { s with table := s.table.insert ssrc stream, heard } ssrc = stream.jitter := by
  simp [buffer]

theorem buffer_insert_of_ne (stream : RemoteStream) (heard : Nat) (h : other ≠ ssrc) :
    buffer config { s with table := s.table.insert ssrc stream, heard } other =
      s.buffer config other := by
  simp only [buffer, Table.get?_insert_of_ne _ _ h]

theorem not_isRetire_of_mem_map_play {frames : List Frame} {order : Order}
    (h : order ∈ frames.map Order.play) : order.isRetire = false := by
  obtain ⟨frame, -, rfl⟩ := List.mem_map.mp h
  rfl

/-- A frame passes through the buffer of its source, and the other buffers stay. -/
theorem buffer_hear (s : Streams) (frame : Frame) (ssrc : UInt32) :
    (s.hear config frame).1.buffer config ssrc =
      ((s.buffer config ssrc).passAll (fromSource ssrc [frame])).2 := by
  by_cases hssrc : ssrc = frame.ssrc
  · rw [hssrc, fromSource_singleton_self]
    exact buffer_insert_self _ _
  · rw [fromSource_singleton_of_ne hssrc]
    exact buffer_insert_of_ne _ _ hssrc

theorem Sorted.pass_own (h : s.Sorted config) (frame : Frame) {f : Frame}
    (hf : f ∈ ((s.buffer config frame.ssrc).pass frame).1 ∨
      f ∈ ((s.buffer config frame.ssrc).pass frame).2.held) : f.ssrc = frame.ssrc := by
  have hordered := (buffer_spec config h.sound frame.ssrc).1
  rcases pass_subset hordered frame hf with rfl | hheld
  · rfl
  · exact h.own frame.ssrc f hheld

theorem apart_hear (h : s.Sorted config) (frame : Frame) :
    Apart config [frame] s (s.hear config frame) := by
  refine ⟨⟨(balance_hear config h.sound frame).sound, fun ssrc f hf => ?_⟩, buffer_hear s frame,
    fun ssrc => ?_, fun ssrc hmem => ?_, fun order hmem => not_isRetire_of_mem_map_play hmem⟩
  · rw [buffer_hear] at hf
    by_cases hssrc : ssrc = frame.ssrc
    · rw [hssrc, fromSource_singleton_self] at hf
      exact hssrc ▸ h.pass_own frame (Or.inr hf)
    · rw [fromSource_singleton_of_ne hssrc] at hf
      exact h.own ssrc f hf
  · have hown : ∀ f ∈ ((s.buffer config frame.ssrc).pass frame).1, f.ssrc = frame.ssrc := by
      intro f hf
      exact h.pass_own frame (Or.inl hf)
    show fromSource ssrc (Streams.plays
      (((s.buffer config frame.ssrc).pass frame).1.map Order.play)) = _
    rw [plays_map_play]
    by_cases hssrc : ssrc = frame.ssrc
    · rw [hssrc, fromSource_singleton_self, fromSource_eq_self hown]
      exact (List.append_nil _).symm
    · rw [fromSource_singleton_of_ne hssrc, fromSource_eq_nil hown (Ne.symm hssrc)]
      rfl
  · rcases Table.mem_keys_insert.mp hmem with rfl | hkey
    · exact Or.inr ⟨frame, List.mem_singleton_self frame, rfl⟩
    · exact Or.inl hkey

/-! ## Room for all -/

/-- A table whose keys are some of these has room for another of them. -/
theorem size_lt_of_keys {sources : List UInt32} (h : s.Sound)
    (hkeys : ∀ k ∈ s.table.keys, k ∈ sources) (hssrc : ssrc ∈ sources)
    (hnew : ssrc ∉ s.table.keys) : s.table.size < sources.dedup.length := by
  have hnodup : (ssrc :: s.table.keys).Nodup := List.nodup_cons.mpr ⟨hnew, h.unique.nodup_keys⟩
  have hsubset : ssrc :: s.table.keys ⊆ sources.dedup := by
    intro k hk
    rw [List.mem_dedup]
    rcases List.mem_cons.mp hk with rfl | hk
    · exact hssrc
    · exact hkeys k hk
  have hlength := (List.subperm_of_subset hnodup hsubset).length_le
  rw [List.length_cons, Table.keys, List.length_map] at hlength
  exact hlength

theorem makeRoom_eq {sources : List UInt32} (h : s.Sound)
    (hroom : sources.dedup.length ≤ config.maxRemoteStreams)
    (hkeys : ∀ k ∈ s.table.keys, k ∈ sources) (hssrc : ssrc ∈ sources) :
    s.makeRoom config ssrc = (s, []) := by
  unfold makeRoom
  refine if_neg fun hfull => ?_
  simp only [Bool.and_eq_true, Bool.not_eq_true', decide_eq_true_eq] at hfull
  obtain ⟨habsent, hsize⟩ := hfull
  have hnone : s.table.get? ssrc = none := by
    simpa [Table.contains] using habsent
  have hlt := size_lt_of_keys h hkeys hssrc (Table.get?_eq_none_iff.mp hnone)
  omega

theorem apart_take {sources : List UInt32} (h : s.Sorted config)
    (hroom : sources.dedup.length ≤ config.maxRemoteStreams)
    (hkeys : ∀ k ∈ s.table.keys, k ∈ sources) (packet : Bool × Octets)
    (hcarried : ∀ f ∈ carried packet, f.ssrc ∈ sources) :
    Apart config (carried packet) s (s.take config packet) := by
  obtain ⟨joined, bytes⟩ := packet
  cases joined with
  | false => exact .refl h
  | true =>
    have hcounted : Sorted config { s with received := s.received + 1 } :=
      ⟨⟨h.sound.unique, h.sound.ordered⟩, h.own⟩
    show Apart config (frameOf? bytes).toList s (s.takePacket config bytes)
    unfold takePacket
    cases hframe : frameOf? bytes with
    | none =>
      refine ⟨hcounted, fun ssrc => rfl, fun ssrc => rfl, fun ssrc hmem => Or.inl hmem, ?_⟩
      intro order hmem
      rw [List.mem_singleton.mp hmem]
      rfl
    | some frame =>
      have hssrc : frame.ssrc ∈ sources :=
        hcarried frame (by simp [carried, hframe])
      dsimp only
      rw [makeRoom_eq hcounted.sound hroom hkeys hssrc]
      have hheard := apart_hear hcounted frame
      exact ⟨hheard.sorted, hheard.buffer, hheard.plays, hheard.keys, hheard.calm⟩

theorem apart_takes {sources : List UInt32} (h : s.Sorted config)
    (hroom : sources.dedup.length ≤ config.maxRemoteStreams)
    (hkeys : ∀ k ∈ s.table.keys, k ∈ sources) (packets : List (Bool × Octets))
    (hcarried : ∀ f ∈ packets.flatMap carried, f.ssrc ∈ sources) :
    Apart config (packets.flatMap carried) s (s.takes config packets) := by
  induction packets generalizing s with
  | nil => exact .refl h
  | cons packet rest ih =>
    have hfirst : ∀ f ∈ carried packet, f.ssrc ∈ sources := by
      intro f hf
      exact hcarried f (List.mem_append_left _ hf)
    have htake := apart_take h hroom hkeys packet hfirst
    refine htake.andThen (ih htake.sorted ?_ fun f hf => hcarried f (List.mem_append_right _ hf))
    intro k hk
    rcases htake.keys k hk with hkey | ⟨f, hf, rfl⟩
    · exact hkeys k hkey
    · exact hfirst f hf

/-! ## Playing out -/

theorem playOut_spec (h : s.Sorted config) (ssrc : UInt32) :
    (s.playOut ssrc).1.Sorted config ∧
      plays (s.playOut ssrc).2 = (s.buffer config ssrc).held ∧
      (∀ other, other ≠ ssrc → (s.playOut ssrc).1.buffer config other = s.buffer config other) ∧
      ∀ order ∈ (s.playOut ssrc).2, order.isRetire = false := by
  have hsound := (balance_playOut h.sound ssrc).sound
  unfold playOut at hsound ⊢
  cases hget : s.table.get? ssrc with
  | none =>
    refine ⟨h, ?_, fun other _ => rfl, fun order hmem => ?_⟩
    · simp only [buffer, hget]
      rfl
    · cases hmem
  | some stream =>
    have hbuffer : s.buffer config ssrc = stream.jitter := by simp [buffer, hget]
    rw [hget] at hsound
    have hothers : ∀ other, other ≠ ssrc →
        buffer config { s with
          table := s.table.insert ssrc { stream with jitter := stream.jitter.drain.2 } } other =
        s.buffer config other := fun other hother => buffer_insert_of_ne _ s.heard hother
    refine ⟨⟨hsound, fun other f hf => ?_⟩, ?_, hothers,
      fun order hmem => not_isRetire_of_mem_map_play hmem⟩
    · by_cases hsame : other = ssrc
      · rw [hsame] at hf
        rw [show buffer config _ ssrc = stream.jitter.drain.2 from buffer_insert_self _ s.heard,
          held_drain] at hf
        cases hf
      · rw [hothers other hsame] at hf
        exact h.own other f hf
    · dsimp only
      rw [plays_map_play, hbuffer]
      rfl

/-- Of each source that is played out there is played what its buffer holds, whatever the order. -/
theorem plays_playOuts (h : s.Sorted config) {ssrcs : List UInt32} (hnodup : ssrcs.Nodup)
    (ssrc : UInt32) :
    fromSource ssrc (plays (s.playOuts ssrcs).2) =
        (if ssrc ∈ ssrcs then (s.buffer config ssrc).held else []) ∧
      ∀ order ∈ (s.playOuts ssrcs).2, order.isRetire = false := by
  induction ssrcs generalizing s with
  | nil =>
    refine ⟨rfl, fun order hmem => ?_⟩
    cases hmem
  | cons first rest ih =>
    obtain ⟨hfirst, hrest⟩ := List.nodup_cons.mp hnodup
    obtain ⟨hsorted, hplays, hothers, hcalm⟩ := playOut_spec h first
    obtain ⟨hrestPlays, hrestCalm⟩ := ih hsorted hrest
    have hown := fromSource_eq_self (h.own first)
    refine ⟨?_, fun order hmem => ?_⟩
    · show fromSource ssrc (plays ((s.playOut first).2 ++ ((s.playOut first).1.playOuts rest).2)) = _
      rw [plays_append, fromSource_append, hplays, hrestPlays]
      -- no source comes twice, so what is left of the others is all they had
      by_cases hsame : ssrc = first
      · rw [hsame, hown, if_neg hfirst, if_pos List.mem_cons_self, List.append_nil]
      · rw [fromSource_eq_nil (h.own first) (Ne.symm hsame), hothers ssrc hsame]
        simp [hsame]
    · rcases List.mem_append.mp hmem with hmem | hmem
      · exact hcalm order hmem
      · exact hrestCalm order hmem

/-- The sources of the frames that are taken in, each of them once. -/
def sources (packets : List (Bool × Octets)) : List UInt32 :=
  ((packets.flatMap carried).map (·.ssrc)).dedup

/-- If there is room for all sources, what is played of one is what a jitter buffer of its own makes
of its frames. -/
theorem plays_sessionIn {packets : List (Bool × Octets)}
    (hroom : (sources packets).length ≤ config.maxRemoteStreams) {ssrcs : List UInt32}
    (hssrcs : ssrcs.Perm (takes config {} packets).1.table.keys) (ssrc : UInt32) :
    fromSource ssrc (plays (sessionIn config packets ssrcs).2) =
        (JitterBuffer.new config.jitter).playThrough
          (fromSource ssrc (packets.flatMap carried)) ∧
      ∀ order ∈ (sessionIn config packets ssrcs).2, order.isRetire = false := by
  have htakes : Apart config (packets.flatMap carried) {} (takes config {} packets) := by
    refine apart_takes (sorted_new config) hroom ?_ packets ?_
    · intro k hk
      cases hk
    · intro f hf
      exact List.mem_map_of_mem hf
  have hnodup : ssrcs.Nodup := hssrcs.nodup_iff.mpr htakes.sorted.sound.unique.nodup_keys
  obtain ⟨hplays, hcalm⟩ := plays_playOuts htakes.sorted hnodup ssrc
  -- a source that is not played out has no stream, and there is nothing in its buffer
  have hall : (if ssrc ∈ ssrcs then ((takes config {} packets).1.buffer config ssrc).held else []) =
      ((takes config {} packets).1.buffer config ssrc).held := by
    by_cases hmem : ssrc ∈ ssrcs
    · exact if_pos hmem
    · rw [if_neg hmem]
      rw [hssrcs.mem_iff, ← Table.get?_eq_none_iff] at hmem
      simp only [buffer, hmem]
      rfl
  rw [hall] at hplays
  refine ⟨?_, fun order hmem => ?_⟩
  · show fromSource ssrc (plays ((takes config {} packets).2 ++
      ((takes config {} packets).1.playOuts ssrcs).2)) = _
    rw [plays_append, fromSource_append, htakes.plays ssrc, hplays, htakes.buffer ssrc]
    rfl
  · rcases List.mem_append.mp hmem with hmem | hmem
    · exact htakes.calm order hmem
    · exact hcalm order hmem

end Streams

/-! ## What is recorded -/

/-- What a frame has written, if it can be decoded. -/
def writeOf? (frame : Frame) : Option (UInt32 × List Int16) :=
  (heardAs frame).map (frame.ssrc, ·)

theorem piecesOf_filterMap (ssrc : UInt32) (frames : List Frame) :
    Recorder.piecesOf ssrc (frames.filterMap writeOf?) =
      (fromSource ssrc frames).filterMap heardAs := by
  induction frames with
  | nil => rfl
  | cons frame rest ih =>
    unfold Recorder.piecesOf fromSource at *
    by_cases hssrc : frame.ssrc = ssrc <;> cases hheard : heardAs frame <;>
      simp [writeOf?, hssrc, hheard] <;> exact ih

namespace Receiver

theorem recorder_decodeFailed (r : Receiver) : r.decodeFailed.recorder = r.recorder := by
  unfold decodeFailed
  dsimp only
  split <;> rfl

theorem recorder_play (r : Receiver) (frame : Frame) :
    (r.play frame).recorder = r.recorder.writeAll (writeOf? frame).toList := by
  unfold play writeOf? heardAs
  cases Audio.decode frame.codec frame.payload with
  | error e => exact recorder_decodeFailed r
  | ok samples =>
    dsimp only
    split <;> rfl

/-- As long as no stream is given up, the recorder writes what is played. -/
theorem recorder_performAll (r : Receiver) {orders : List Order}
    (h : ∀ order ∈ orders, order.isRetire = false) :
    (r.performAll orders).recorder =
      r.recorder.writeAll ((Streams.plays orders).filterMap writeOf?) := by
  induction orders generalizing r with
  | nil => rfl
  | cons order rest ih =>
    have hrest := ih (r.perform order) fun order hmem => h order (List.mem_cons_of_mem _ hmem)
    refine hrest.trans ?_
    cases order with
    | garbled =>
      show r.decodeFailed.recorder.writeAll _ = _
      rw [recorder_decodeFailed]
      rfl
    | play frame =>
      show (r.play frame).recorder.writeAll _ = _
      rw [recorder_play]
      cases hwrite : writeOf? frame <;> simp [Streams.plays, Order.frame?, hwrite, Recorder.writeAll]
    | retire ssrc buffer => cases h _ List.mem_cons_self

/-- Takes packets in, from the first on, where there are older files. -/
def fed (config : ReceiverConfig) (old : Table UInt32 Octets)
    (packets : List (Bool × Octets)) : Receiver :=
  packets.foldl (fun r p => r.take p.1 p.2) { config, recorder := { files := old } }

section Files

variable {config : ReceiverConfig} {old : Table UInt32 Octets} {packets : List (Bool × Octets)}
  {ssrcs : List UInt32}

/-- If there is room for all sources, the file of one holds what a jitter buffer of its own makes of
its frames, in place of an older file; without any such frame an older file stays. -/
theorem get?_files_finishIn (hroom : (Streams.sources packets).length ≤ config.maxRemoteStreams)
    (hssrcs : ssrcs.Perm (fed config old packets).streams.keys) (ssrc : UInt32) :
    ((fed config old packets).finishIn ssrcs).recorder.files.get? ssrc =
      (Recorder.onto none (((JitterBuffer.new config.jitter).playThrough
        (fromSource ssrc (packets.flatMap Streams.carried))).filterMap heardAs)).or
          (old.get? ssrc) := by
  rw [fed, streams_takes] at hssrcs
  obtain ⟨hplays, hcalm⟩ := Streams.plays_sessionIn hroom hssrcs ssrc
  have hrecorder := recorder_performAll { config, recorder := { files := old } } hcalm
  obtain ⟨hsound, htape⟩ := Recorder.tape_writeAll (Recorder.sound_new old)
    ((Streams.plays (Streams.sessionIn config packets ssrcs).2).filterMap writeOf?) ssrc
  rw [fed, session_eq config { files := old } packets ssrcs]
  dsimp only
  rw [hrecorder]
  refine (Recorder.get?_files_flush hsound ssrc).trans ?_
  rw [htape, piecesOf_filterMap, hplays]
  rfl

end Files

end Receiver

/-! ## One source by itself -/

/-- The source of a packet, if it can be read. -/
def source? (packet : Octets) : Option UInt32 :=
  match Packet.decode packet with
  | .ok packet => some packet.ssrc
  | .error _ => none

/-- The packets of one source, in the order in which they come. -/
def packetsOf (ssrc : UInt32) (packets : List (Bool × Octets)) : List (Bool × Octets) :=
  packets.filter fun packet => source? packet.2 == some ssrc

theorem source?_of_frameOf? {packet : Octets} {frame : Frame} (h : frameOf? packet = some frame) :
    source? packet = some frame.ssrc := by
  unfold frameOf? at h
  unfold source?
  cases hdecode : Packet.decode packet with
  | error e =>
    rw [hdecode] at h
    cases h
  | ok body =>
    rw [hdecode] at h
    obtain ⟨codec, -, rfl⟩ := Option.map_eq_some_iff.mp h
    rfl

theorem ssrc_of_mem_carried {packet : Bool × Octets} {frame : Frame}
    (h : frame ∈ Streams.carried packet) : source? packet.2 = some frame.ssrc := by
  unfold Streams.carried at h
  split at h
  · exact source?_of_frameOf? (Option.mem_toList.mp h)
  · cases h

theorem fromSource_packetsOf (ssrc : UInt32) (packets : List (Bool × Octets)) :
    fromSource ssrc ((packetsOf ssrc packets).flatMap Streams.carried) =
      fromSource ssrc (packets.flatMap Streams.carried) := by
  induction packets with
  | nil => rfl
  | cons packet rest ih =>
    rw [List.flatMap_cons, fromSource_append, ← ih]
    by_cases hown : source? packet.2 = some ssrc
    · have hkept : packetsOf ssrc (packet :: rest) = packet :: packetsOf ssrc rest :=
        List.filter_cons_of_pos (beq_iff_eq.mpr hown)
      rw [hkept, List.flatMap_cons, fromSource_append]
    · have hdropped : packetsOf ssrc (packet :: rest) = packetsOf ssrc rest :=
        List.filter_cons_of_neg fun h => hown (beq_iff_eq.mp h)
      have hnone : fromSource ssrc (Streams.carried packet) = [] := by
        refine List.filter_eq_nil_iff.mpr fun f hf hssrc => hown ?_
        rw [ssrc_of_mem_carried hf, beq_iff_eq.mp hssrc]
      rw [hdropped, hnone, List.nil_append]

theorem length_sources_packetsOf (ssrc : UInt32) (packets : List (Bool × Octets)) :
    (Streams.sources (packetsOf ssrc packets)).length ≤ (Streams.sources packets).length := by
  refine (List.subperm_of_subset (List.nodup_dedup _) fun k hk => ?_).length_le
  obtain ⟨f, hf, rfl⟩ := List.mem_map.mp (List.mem_dedup.mp hk)
  obtain ⟨packet, hpacket, hcarried⟩ := List.mem_flatMap.mp hf
  refine List.mem_dedup.mpr (List.mem_map_of_mem ?_)
  exact List.mem_flatMap.mpr ⟨packet, (List.mem_filter.mp hpacket).1, hcarried⟩

/-- **Streams do not bear on each other's audio.** If there is room for all sources, the file of a
source is, byte for byte, the one that there would be had only the packets of that source come. It
makes no difference in which order the streams are played out at the end. -/
theorem files_apart (config : ReceiverConfig) (old : Table UInt32 Octets)
    (packets : List (Bool × Octets)) (ssrc : UInt32)
    (hroom : (Streams.sources packets).length ≤ config.maxRemoteStreams)
    {ssrcs ssrcs' : List UInt32}
    (hssrcs : ssrcs.Perm (Receiver.fed config old packets).streams.keys)
    (hssrcs' : ssrcs'.Perm
      (Receiver.fed config old (packetsOf ssrc packets)).streams.keys) :
    ((Receiver.fed config old packets).finishIn ssrcs).recorder.files.get? ssrc =
      ((Receiver.fed config old (packetsOf ssrc packets)).finishIn
        ssrcs').recorder.files.get? ssrc := by
  have hroom' := Nat.le_trans (length_sources_packetsOf ssrc packets) hroom
  rw [Receiver.get?_files_finishIn hroom hssrcs, Receiver.get?_files_finishIn hroom' hssrcs',
    fromSource_packetsOf]

/-- Two sources in turns, in a table that has room for two. -/
theorem files_apart_of_two :
    let packet (sequence : UInt16) (ssrc : UInt32) (sample : Int16) : Bool × Octets :=
      (true, (Packet.ofFrame ⟨sequence, 0, ssrc, .l16, Octets.ofSamplesBe [sample]⟩).encode)
    let packets := [packet 5 1 10, packet 9 2 (-1), packet 7 1 12, packet 8 2 (-2), packet 6 1 11]
    let all := Receiver.fed { maxRemoteStreams := 2 } {} packets
    let one := Receiver.fed { maxRemoteStreams := 2 } {} (packetsOf 1 packets)
    (Streams.sources packets).length ≤ 2 ∧ [1, 2].Perm all.streams.keys ∧
    [1].Perm one.streams.keys ∧
    (all.finishIn [1, 2]).recorder.files.get? 1 = (one.finishIn [1]).recorder.files.get? 1 ∧
    (all.finishIn [1, 2]).recorder.files.get? 1 = some [10, 0, 11, 0, 12, 0] := by
  intro packet packets all one
  have hroom : (Streams.sources packets).length ≤ 2 := by decide +kernel
  have hall : [1, 2].Perm all.streams.keys := by decide +kernel
  have hone : [1].Perm one.streams.keys := by decide +kernel
  have hfile : (all.finishIn [1, 2]).recorder.files.get? 1 = some [10, 0, 11, 0, 12, 0] := by
    decide +kernel
  exact ⟨hroom, hall, hone,
    files_apart { maxRemoteStreams := 2 } {} packets 1 hroom hall hone, hfile⟩

end Parley
