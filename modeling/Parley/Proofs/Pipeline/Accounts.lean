import Mathlib.Algebra.Ring.Nat
import Mathlib.Data.List.Perm.Subperm
import Parley.Proofs.Pipeline.Orders
import Parley.Proofs.Rtp.Account

/-!
# `Parley/Proofs/Pipeline/Accounts.lean` — no packet goes astray

A packet that comes in is garbled, or it carries a frame. Among the streams a frame is held, played,
or thrown away by the buffer of its stream, whose count survives the stream in what the stream
leaves behind (`Streams.Balance`). What is played meets one of three fates in the other half. In
between stand the orders, so each half is counted on its own; and once a session is over nothing is
held any more.
-/

set_option autoImplicit false

namespace Parley

open Parley.Rtp JitterBuffer
open scoped List

/-! ## What the orders say -/

def Order.frame? : Order → Option Frame
  | .play frame => some frame
  | _ => none

/-- The number of frames that the buffer of a stream has thrown away, told when it is given up. -/
def Order.discarded : Order → Nat
  | .retire _ buffer => buffer.discarded
  | _ => 0

def Order.isGarbled : Order → Bool
  | .garbled => true
  | _ => false

namespace Streams

/-- The frames that are played. -/
def plays (orders : List Order) : List Frame := orders.filterMap Order.frame?

def garbled (orders : List Order) : Nat := orders.countP Order.isGarbled

/-- The frames that the buffers of streams given up had thrown away. -/
def retiredIn (orders : List Order) : Nat := (orders.map Order.discarded).sum

theorem plays_append (orders more : List Order) :
    plays (orders ++ more) = plays orders ++ plays more := List.filterMap_append

theorem garbled_append (orders more : List Order) :
    garbled (orders ++ more) = garbled orders + garbled more := List.countP_append

theorem retiredIn_append (orders more : List Order) :
    retiredIn (orders ++ more) = retiredIn orders + retiredIn more := by
  simp [retiredIn]

@[simp] theorem plays_map_play (frames : List Frame) : plays (frames.map .play) = frames := by
  induction frames with
  | nil => rfl
  | cons frame rest ih => exact congrArg (frame :: ·) ih

@[simp] theorem garbled_map_play (frames : List Frame) : garbled (frames.map .play) = 0 := by
  induction frames with
  | nil => rfl
  | cons frame rest ih => exact ih

@[simp] theorem retiredIn_map_play (frames : List Frame) : retiredIn (frames.map .play) = 0 := by
  induction frames with
  | nil => rfl
  | cons frame rest ih => exact (Nat.zero_add _).trans ih

/-! ## Frames in tables of streams -/

/-- The frames that are held in a table of streams. -/
def heldIn (table : Table UInt32 RemoteStream) : List Frame :=
  table.entries.flatMap (·.2.jitter.held)

/-- The frames that the buffers in a table of streams have thrown away. -/
def discardedIn (table : Table UInt32 RemoteStream) : Nat :=
  (table.entries.map (·.2.jitter.discarded)).sum

/-- Each source has one stream, and each buffer is in order. -/
structure Sound (s : Streams) : Prop where
  unique : s.table.Unique
  ordered : ∀ e ∈ s.table.entries, e.2.jitter.Ordered

variable (config : ReceiverConfig) {s : Streams} {ssrc : UInt32} {stream : RemoteStream}

theorem sound_new : Sound {} := ⟨Table.unique_empty, by simp⟩

theorem Sound.erase (h : s.Sound) (ssrc : UInt32) : Sound { s with table := s.table.erase ssrc } :=
  ⟨h.unique.erase ssrc, fun e he => h.ordered e (List.mem_filter.mp he).1⟩

theorem Sound.insert (h : s.Sound) (ssrc : UInt32) {stream : RemoteStream}
    (hstream : stream.jitter.Ordered) (heard : Nat) :
    Sound { s with table := s.table.insert ssrc stream, heard } := by
  refine ⟨h.unique.insert ssrc stream, fun e he => ?_⟩
  rcases List.mem_cons.mp he with rfl | he
  · exact hstream
  · exact h.ordered e (List.mem_filter.mp he).1

theorem heldIn_insert (table : Table UInt32 RemoteStream) :
    heldIn (table.insert ssrc stream) = stream.jitter.held ++ heldIn (table.erase ssrc) := rfl

theorem discardedIn_insert (table : Table UInt32 RemoteStream) :
    discardedIn (table.insert ssrc stream) =
      stream.jitter.discarded + discardedIn (table.erase ssrc) := rfl

theorem heldIn_perm (h : s.Sound) (hmem : (ssrc, stream) ∈ s.table.entries) :
    (heldIn s.table).Perm (stream.jitter.held ++ heldIn (s.table.erase ssrc)) :=
  (h.unique.perm_erase hmem).flatMap_right _

theorem discardedIn_eq (h : s.Sound) (hmem : (ssrc, stream) ∈ s.table.entries) :
    discardedIn s.table = stream.jitter.discarded + discardedIn (s.table.erase ssrc) :=
  ((h.unique.perm_erase hmem).map _).sum_nat

/-- The buffer of a source, and what the other sources have. -/
theorem buffer_spec (h : s.Sound) (ssrc : UInt32) :
    (s.buffer config ssrc).Ordered ∧
      (heldIn s.table).Perm ((s.buffer config ssrc).held ++ heldIn (s.table.erase ssrc)) ∧
      discardedIn s.table =
        (s.buffer config ssrc).discarded + discardedIn (s.table.erase ssrc) := by
  cases hget : s.table.get? ssrc with
  | some stream =>
    have hbuffer : s.buffer config ssrc = stream.jitter := by simp [buffer, hget]
    have hmem := (Table.mem_entries_iff h.unique).mpr hget
    rw [hbuffer]
    exact ⟨h.ordered _ hmem, heldIn_perm h hmem, discardedIn_eq h hmem⟩
  | none =>
    have hbuffer : s.buffer config ssrc = .new config.jitter := by simp [buffer, hget]
    rw [hbuffer, Table.erase_of_get?_eq_none hget]
    exact ⟨ordered_new _, .refl _, (Nat.zero_add _).symm⟩

theorem leastRecent_concat (entries : List (UInt32 × RemoteStream)) (e : UInt32 × RemoteStream) :
    Receiver.leastRecent (entries ++ [e]) =
      match Receiver.leastRecent entries with
      | none => some e
      | some l => if e.2.lastHeard < l.2.lastHeard then some e else some l :=
  List.foldl_append

/-- The choice falls on an entry with the earliest date. -/
theorem leastRecent_spec {entries : List (UInt32 × RemoteStream)} (h : entries ≠ []) :
    ∃ e ∈ entries, Receiver.leastRecent entries = some e ∧
      ∀ e' ∈ entries, e.2.lastHeard ≤ e'.2.lastHeard := by
  induction entries using List.reverseRecOn with
  | nil => exact absurd rfl h
  | append_singleton entries last ih =>
    rw [leastRecent_concat]
    by_cases hempty : entries = []
    · refine ⟨last, by simp, by rw [hempty]; rfl, ?_⟩
      simp [hempty]
    · obtain ⟨e, he, hleast, hmin⟩ := ih hempty
      rw [hleast]
      dsimp only
      split
      · rename_i hearlier
        refine ⟨last, by simp, rfl, fun e' he' => ?_⟩
        rcases List.mem_append.mp he' with hmem | hmem
        · exact Nat.le_trans (Nat.le_of_lt hearlier) (hmin e' hmem)
        · rw [List.mem_singleton.mp hmem]
      · rename_i hlater
        refine ⟨e, List.mem_append_left _ he, rfl, fun e' he' => ?_⟩
        rcases List.mem_append.mp he' with hmem | hmem
        · exact hmin e' hmem
        · rw [List.mem_singleton.mp hmem]
          exact Nat.not_lt.mp hlater

theorem leastRecent_mem {entries : List (UInt32 × RemoteStream)} {e : UInt32 × RemoteStream}
    (h : Receiver.leastRecent entries = some e) : e ∈ entries := by
  have hsome : entries ≠ [] := by
    rintro rfl
    cases h
  obtain ⟨chosen, hmem, hleast, -⟩ := leastRecent_spec hsome
  obtain rfl : chosen = e := Option.some.inj (hleast.symm.trans h)
  exact hmem

/-! ## The balance of the streams -/

/-- The streams are given frames. Of these and of those held before, each one is played at most once
or held still, and the rest is counted as thrown away. -/
structure Balance (given : List Frame) (s : Streams) (out : Streams × List Order) : Prop where
  sound : out.1.Sound
  subperm : (plays out.2 ++ heldIn out.1.table).Subperm (given ++ heldIn s.table)
  count : (plays out.2).length + (heldIn out.1.table).length +
      (discardedIn out.1.table + retiredIn out.2) =
    given.length + (heldIn s.table).length + discardedIn s.table

theorem Balance.refl (h : s.Sound) : Balance [] s (s, []) :=
  ⟨h, .refl _, by simp [plays, retiredIn]⟩

theorem Balance.andThen {given more : List Frame} {out : Streams × List Order}
    {next : Streams → Streams × List Order} (h : Balance given s out)
    (hnext : Balance more out.1 (next out.1)) :
    Balance (given ++ more) s (Streams.andThen out next) := by
  have hcount := h.count
  have hcount' := hnext.count
  refine ⟨hnext.sound, ?_, ?_⟩
  -- what is held between the two is put in front of what the second is given, and taken out again
  · have hlast : plays out.2 ++ (plays (next out.1).2 ++ heldIn (next out.1).1.table) <+~
        plays out.2 ++ (more ++ heldIn out.1.table) :=
      (List.subperm_append_left _).mpr hnext.subperm
    have hfirst : more ++ (plays out.2 ++ heldIn out.1.table) <+~
        more ++ (given ++ heldIn s.table) :=
      (List.subperm_append_left _).mpr h.subperm
    have hmiddle := List.perm_append_comm_assoc (plays out.2) more (heldIn out.1.table)
    have hend := List.perm_append_comm_assoc more given (heldIn s.table)
    show plays (out.2 ++ (next out.1).2) ++ heldIn (next out.1).1.table <+~ _
    rw [plays_append, List.append_assoc, List.append_assoc]
    exact hlast.trans (hmiddle.subperm.trans (hfirst.trans hend.subperm))
  · simp only [Streams.andThen, plays_append, retiredIn_append, List.length_append]
    omega

theorem balance_evict (h : s.Sound) : Balance [] s s.evict := by
  unfold evict
  cases hleast : Receiver.leastRecent s.table.entries with
  | none => exact .refl h
  | some e =>
    obtain ⟨ssrc, stream⟩ := e
    have hmem := leastRecent_mem hleast
    have hheld := heldIn_perm h hmem
    have hdiscarded := discardedIn_eq h hmem
    have hplays : plays (stream.jitter.drain.1.map .play ++ [.retire ssrc stream.jitter.drain.2]) =
        stream.jitter.held := by
      rw [plays_append, plays_map_play, drain, held]
      exact List.append_nil _
    have hretired :
        retiredIn (stream.jitter.drain.1.map .play ++ [.retire ssrc stream.jitter.drain.2]) =
          stream.jitter.discarded := by
      rw [retiredIn_append, retiredIn_map_play]
      simp [retiredIn, Order.discarded, (releases_drain stream.jitter).discarded]
    refine ⟨h.erase ssrc, ?_, ?_⟩
    · dsimp only
      rw [hplays]
      exact hheld.symm.subperm
    · dsimp only
      rw [hplays, hretired, hdiscarded, hheld.length_eq]
      simp
      omega

/-- A stream goes on: of what its buffer had and was given some is played, and the rest is there or
counted. -/
theorem balance_insert (h : s.Sound) {given frames : List Frame} {b : JitterBuffer} {heard : Nat}
    (hheld : heldIn s.table ~ b.held ++ heldIn (s.table.erase ssrc))
    (hdiscarded : discardedIn s.table = b.discarded + discardedIn (s.table.erase ssrc))
    (hordered : stream.jitter.Ordered)
    (hsubperm : frames ++ stream.jitter.held <+~ given ++ b.held)
    (hcount : frames.length + stream.jitter.held.length + stream.jitter.discarded =
      given.length + b.held.length + b.discarded) :
    Balance given s
      ({ s with table := s.table.insert ssrc stream, heard }, frames.map .play) := by
  refine ⟨h.insert ssrc hordered heard, ?_, ?_⟩
  · rw [plays_map_play, heldIn_insert, ← List.append_assoc]
    have hall := hsubperm.append (List.Subperm.refl (heldIn (s.table.erase ssrc)))
    rw [List.append_assoc given] at hall
    exact hall.trans ((List.subperm_append_left _).mpr hheld.symm.subperm)
  · rw [plays_map_play, retiredIn_map_play, heldIn_insert, discardedIn_insert, hdiscarded,
      hheld.length_eq, List.length_append, List.length_append]
    omega

theorem balance_hear (h : s.Sound) (frame : Frame) : Balance [frame] s (s.hear config frame) := by
  obtain ⟨hordered, hheld, hdiscarded⟩ := buffer_spec config h frame.ssrc
  have hkeeps := keeps_push (s.buffer config frame.ssrc) frame
  obtain ⟨hordered', hreleases⟩ := releases_popAll (ordered_push hordered frame)
  have hlength := hreleases.perm.length_eq
  have hcount := hkeeps.count
  have hplayed := hreleases.discarded
  rw [List.length_append] at hlength hcount
  apply balance_insert h hheld hdiscarded hordered'
  · exact hreleases.perm.symm.subperm.trans hkeeps.subperm
  · dsimp only
    omega

theorem balance_makeRoom (h : s.Sound) (ssrc : UInt32) :
    Balance [] s (s.makeRoom config ssrc) := by
  unfold makeRoom
  split
  · exact balance_evict h
  · exact .refl h

theorem balance_takePacket (h : s.Sound) (packet : Octets) :
    Balance (frameOf? packet).toList s (s.takePacket config packet) := by
  -- the packet is counted first, which leaves the table as it is
  have hnext : Sound { s with received := s.received + 1 } := ⟨h.unique, h.ordered⟩
  have hbalance : Balance (frameOf? packet).toList { s with received := s.received + 1 }
      (s.takePacket config packet) := by
    unfold takePacket
    cases frameOf? packet with
    | none => exact ⟨hnext, .refl _, by simp [plays, retiredIn, Order.discarded, Order.frame?]⟩
    | some frame =>
      have hroom := balance_makeRoom config hnext frame.ssrc
      exact hroom.andThen (balance_hear config hroom.sound frame)
  exact ⟨hbalance.sound, hbalance.subperm, hbalance.count⟩

/-- The frame of a packet that the streams take in. -/
def carried (packet : Bool × Octets) : List Frame :=
  if packet.1 then (frameOf? packet.2).toList else []

theorem balance_take (h : s.Sound) (packet : Bool × Octets) :
    Balance (carried packet) s (s.take config packet) := by
  unfold carried take
  split
  · exact balance_takePacket config h packet.2
  · exact .refl h

theorem balance_takes (h : s.Sound) (packets : List (Bool × Octets)) :
    Balance (packets.flatMap carried) s (s.takes config packets) := by
  induction packets generalizing s with
  | nil => exact .refl h
  | cons packet rest ih =>
    have htake := balance_take config h packet
    exact htake.andThen (ih htake.sound)

theorem balance_playOut (h : s.Sound) (ssrc : UInt32) : Balance [] s (s.playOut ssrc) := by
  unfold playOut
  cases hget : s.table.get? ssrc with
  | none => exact .refl h
  | some stream =>
    have hmem := (Table.mem_entries_iff h.unique).mpr hget
    have hreleases := releases_drain stream.jitter
    have hlength := hreleases.perm.length_eq
    have hdiscarded := hreleases.discarded
    rw [List.length_append] at hlength
    apply balance_insert h (heldIn_perm h hmem) (discardedIn_eq h hmem)
    · exact (ordered_drain (h.ordered _ hmem)).1
    · exact hreleases.perm.symm.subperm
    · dsimp only [List.length_nil]
      omega

theorem balance_playOuts (h : s.Sound) (ssrcs : List UInt32) :
    Balance [] s (s.playOuts ssrcs) := by
  induction ssrcs generalizing s with
  | nil => exact .refl h
  | cons ssrc rest ih =>
    have hplay := balance_playOut h ssrc
    exact hplay.andThen (ih hplay.sound)

/-- Once the streams of all sources have been played out, nothing is held. -/
theorem heldIn_playOuts {ssrcs : List UInt32}
    (h : ∀ e ∈ s.table.entries, e.1 ∈ ssrcs ∨ e.2.jitter.held = []) :
    heldIn (s.playOuts ssrcs).1.table = [] := by
  induction ssrcs generalizing s with
  | nil =>
    apply List.flatMap_eq_nil_iff.mpr
    intro e he
    exact (h e he).resolve_left (by simp)
  | cons ssrc rest ih =>
    -- a stream that has been played out stays empty while the others are
    show heldIn ((s.playOut ssrc).1.playOuts rest).1.table = []
    apply ih
    intro e he
    unfold playOut at he
    cases hget : s.table.get? ssrc with
    | none =>
      rw [hget] at he
      rcases h e he with hmem | hheld
      · rcases List.mem_cons.mp hmem with rfl | hmem
        · exact absurd (List.mem_map_of_mem he) (Table.get?_eq_none_iff.mp hget)
        · exact .inl hmem
      · exact .inr hheld
    | some stream =>
      rw [hget] at he
      rcases List.mem_cons.mp he with rfl | he
      · exact .inr (held_drain stream.jitter)
      · obtain ⟨hmem, hne⟩ := List.mem_filter.mp he
        rcases h e hmem with hmem | hheld
        · exact .inl ((List.mem_cons.mp hmem).resolve_left (by simpa using hne))
        · exact .inr hheld

/-- Of the frames that the packets of a session carry, each one is played at most once, and those
that are not are counted as thrown away, once all streams have been played out. -/
theorem session_frames (packets : List (Bool × Octets)) {ssrcs : List UInt32}
    (hall : ∀ k ∈ (takes config {} packets).1.table.keys, k ∈ ssrcs) :
    let out := sessionIn config packets ssrcs
    plays out.2 <+~ packets.flatMap carried ∧
      (packets.flatMap carried).length =
        (plays out.2).length + (retiredIn out.2 + discardedIn out.1.table) := by
  intro out
  have htakes := balance_takes config sound_new packets
  have hout : Balance (packets.flatMap carried ++ []) {} out :=
    htakes.andThen (balance_playOuts htakes.sound ssrcs)
  have hheld : heldIn out.1.table = [] := by
    apply heldIn_playOuts
    intro e he
    exact .inl (hall e.1 (List.mem_map_of_mem he))
  have hnone : heldIn ({} : Streams).table = [] := rfl
  obtain ⟨-, hsubperm, hcount⟩ := hout
  rw [hheld, hnone, List.append_nil, List.append_nil, List.append_nil] at hsubperm
  rw [hheld, hnone, List.append_nil] at hcount
  refine ⟨hsubperm, ?_⟩
  change _ + 0 + _ = _ + 0 + 0 at hcount
  omega

/-! ## The packets counted -/

/-- The packets taken in are counted, and are garbled or carry a frame. -/
structure Counted (arrived frames : Nat) (s : Streams) (out : Streams × List Order) : Prop where
  received : out.1.received = s.received + arrived
  garbled : garbled out.2 + frames = arrived

theorem Counted.andThen {arrived frames more moreFrames : Nat} {out : Streams × List Order}
    {next : Streams → Streams × List Order} (h : Counted arrived frames s out)
    (hnext : Counted more moreFrames out.1 (next out.1)) :
    Counted (arrived + more) (frames + moreFrames) s (Streams.andThen out next) := by
  obtain ⟨hreceived, hgarbled⟩ := h
  obtain ⟨hreceived', hgarbled'⟩ := hnext
  constructor
  · simp only [Streams.andThen]
    omega
  · simp only [Streams.andThen, garbled_append]
    omega

theorem counted_makeRoom (s : Streams) (ssrc : UInt32) :
    Counted 0 0 s (s.makeRoom config ssrc) := by
  unfold makeRoom evict
  split
  · split
    · exact ⟨rfl, rfl⟩
    · exact ⟨rfl, by simp [garbled_append]; rfl⟩
  · exact ⟨rfl, rfl⟩

theorem counted_hear (s : Streams) (frame : Frame) : Counted 0 0 s (s.hear config frame) :=
  ⟨rfl, garbled_map_play _⟩

theorem counted_playOuts (s : Streams) (ssrcs : List UInt32) :
    Counted 0 0 s (s.playOuts ssrcs) := by
  induction ssrcs generalizing s with
  | nil => exact ⟨rfl, rfl⟩
  | cons ssrc rest ih =>
    have hplay : Counted 0 0 s (s.playOut ssrc) := by
      unfold playOut
      split
      · exact ⟨rfl, rfl⟩
      · exact ⟨rfl, garbled_map_play _⟩
    have hall : Counted (0 + 0) (0 + 0) s (s.playOuts (ssrc :: rest)) :=
      hplay.andThen (ih (s.playOut ssrc).1)
    exact hall

theorem counted_take (s : Streams) (packet : Bool × Octets) :
    Counted (if packet.1 then 1 else 0) (carried packet).length s (s.take config packet) := by
  unfold carried take
  split
  · unfold takePacket
    cases frameOf? packet.2 with
    | none => exact ⟨rfl, rfl⟩
    | some frame =>
      have hroom := counted_makeRoom config { s with received := s.received + 1 } frame.ssrc
      have hall : Counted (0 + 0) (0 + 0) { s with received := s.received + 1 }
          (andThen (makeRoom config { s with received := s.received + 1 } frame.ssrc)
            (·.hear config frame)) :=
        hroom.andThen (counted_hear config _ frame)
      exact ⟨hall.received, congrArg (· + 1) hall.garbled⟩
  · exact ⟨rfl, rfl⟩

theorem counted_takes (s : Streams) (packets : List (Bool × Octets)) :
    Counted (packets.countP (·.1)) (packets.flatMap carried).length s (s.takes config packets) := by
  induction packets generalizing s with
  | nil => exact ⟨rfl, rfl⟩
  | cons packet rest ih =>
    rw [List.countP_cons, List.flatMap_cons, List.length_append, Nat.add_comm (rest.countP _)]
    exact (counted_take config s packet).andThen (ih (s.take config packet).1)

theorem session_packets (packets : List (Bool × Octets)) (ssrcs : List UInt32) :
    let out := sessionIn config packets ssrcs
    out.1.received = packets.countP (·.1) ∧
      garbled out.2 + (packets.flatMap carried).length = packets.countP (·.1) := by
  intro out
  have hout : Counted (packets.countP (·.1) + 0) ((packets.flatMap carried).length + 0) {} out :=
    (counted_takes config {} packets).andThen (counted_playOuts _ ssrcs)
  exact ⟨hout.received.trans (Nat.zero_add _), hout.garbled⟩

end Streams

/-! ## What comes of what is played -/

/-- What comes of an order that something is to be recorded by. -/
inductive Fate where
  | undecodable
  | recorded
  | unrecorded
  deriving DecidableEq

namespace Receiver

/-- What comes of an order; of closing a file nothing does. -/
def fate? (r : Receiver) : Order → Option Fate
  | .garbled => some .undecodable
  | .play frame =>
    match Audio.decode frame.codec frame.payload with
    | .error _ => some .undecodable
    | .ok samples =>
      if (r.recorder.write frame.ssrc samples).1 then some .recorded else some .unrecorded
  | .retire _ _ => none

/-- What comes of orders, each performed after those before it. -/
def fates (r : Receiver) : List Order → List Fate
  | [] => []
  | order :: rest => (r.fate? order).toList ++ (r.perform order).fates rest

variable (r : Receiver)

theorem attempts_write (recorder : Recorder) (ssrc : UInt32) (samples : List Int16) :
    (recorder.write ssrc samples).2.attempts = recorder.attempts + 1 := by
  unfold Recorder.write Recorder.openFile
  dsimp only
  repeat' split
  all_goals rfl

theorem attempts_close (recorder : Recorder) (ssrc : UInt32) :
    (recorder.close ssrc).attempts = recorder.attempts := by
  unfold Recorder.close
  split <;> rfl

/-- What a receiver counts of orders, by what comes of them. -/
structure Tallies (before after : Receiver) (fates : List Fate) : Prop where
  decodeErrors : after.decodeErrors = before.decodeErrors + fates.count .undecodable
  dropped : after.dropped = before.dropped + fates.count .unrecorded
  /-- The recorder is called on once for each frame that could be decoded. -/
  attempts : after.recorder.attempts =
    before.recorder.attempts + fates.count .recorded + fates.count .unrecorded

theorem tallies_decodeFailed : Tallies r r.decodeFailed [.undecodable] := by
  unfold decodeFailed
  dsimp only
  split <;> exact ⟨rfl, rfl, rfl⟩

theorem tallies_perform (order : Order) :
    Tallies r (r.perform order) (r.fate? order).toList := by
  cases order with
  | garbled => exact tallies_decodeFailed r
  | retire ssrc buffer => exact ⟨rfl, rfl, attempts_close r.recorder ssrc⟩
  | play frame =>
    cases hdecode : Audio.decode frame.codec frame.payload with
    | error e =>
      simp only [perform, play, fate?, hdecode]
      exact tallies_decodeFailed r
    | ok samples =>
      have hattempts := attempts_write r.recorder frame.ssrc samples
      cases hdone : (r.recorder.write frame.ssrc samples).1 with
      | true =>
        simp only [perform, play, fate?, hdecode, hdone]
        exact ⟨rfl, rfl, hattempts⟩
      | false =>
        simp only [perform, play, fate?, hdecode, hdone]
        exact ⟨rfl, rfl, hattempts⟩

theorem tallies_performAll (orders : List Order) :
    Tallies r (r.performAll orders) (r.fates orders) := by
  induction orders generalizing r with
  | nil => exact ⟨rfl, rfl, rfl⟩
  | cons order rest ih =>
    obtain ⟨herrors, hdropped, hattempts⟩ := tallies_perform r order
    obtain ⟨herrors', hdropped', hattempts'⟩ := ih (r.perform order)
    constructor <;> simp only [fates, List.count_append]
    · exact herrors'.trans (by omega)
    · exact hdropped'.trans (by omega)
    · exact hattempts'.trans (by omega)

theorem length_fate? (order : Order) :
    (r.fate? order).toList.length = Streams.garbled [order] + (Streams.plays [order]).length := by
  cases order with
  | garbled | retire => rfl
  | play frame =>
    cases hdecode : Audio.decode frame.codec frame.payload with
    | error e =>
      simp only [fate?, hdecode]
      rfl
    | ok samples =>
      simp only [fate?, hdecode]
      split <;> rfl

theorem length_fates (orders : List Order) :
    (r.fates orders).length = Streams.garbled orders + (Streams.plays orders).length := by
  induction orders generalizing r with
  | nil => rfl
  | cons order rest ih =>
    show _ = Streams.garbled ([order] ++ rest) + (Streams.plays ([order] ++ rest)).length
    rw [fates, List.length_append, ih, length_fate?, Streams.garbled_append,
      Streams.plays_append, List.length_append]
    omega

theorem length_eq_counts (fates : List Fate) :
    fates.length = fates.count .undecodable + fates.count .recorded + fates.count .unrecorded := by
  induction fates with
  | nil => rfl
  | cons fate rest ih =>
    cases fate <;> simp [ih] <;> omega

/-- **No packet goes astray.** Play all streams out at the end of a session, in any order. Then each
packet taken in was undecodable, was recorded, could not be recorded, or was thrown away by a buffer,
be it that of a stream still there or of one given up; and of the frames that the packets carried
none was played twice. The fates are those of the orders performed one after the other, which is what
the session did to its recorder. -/
theorem accounts_for_packets (config : ReceiverConfig) (recorder : Recorder)
    (packets : List (Bool × Octets)) (ssrcs : List UInt32) :
    let first : Receiver := { config, recorder }
    let now := packets.foldl (fun r p => r.take p.1 p.2) first
    let last := now.finishIn ssrcs
    let orders := (Streams.sessionIn config packets ssrcs).2
    let fates := first.fates orders
    let frames := packets.flatMap Streams.carried
    let discarded := Streams.retiredIn orders + Streams.discardedIn last.streams
    ssrcs.Perm now.streams.keys →
    last.received = last.decodeErrors + fates.count .recorded + last.dropped + discarded ∧
      last.received = packets.countP (·.1) ∧
      last.decodeErrors = fates.count .undecodable ∧
      last.dropped = fates.count .unrecorded ∧
      last.recorder.attempts =
        recorder.attempts + fates.count .recorded + fates.count .unrecorded ∧
      last.recorder = (first.performAll orders).recorder.flush ∧
      Streams.plays orders <+~ frames ∧
      frames.length = (Streams.plays orders).length + discarded := by
  intro first now last orders fates frames discarded hssrcs
  have hlast : last = { (first.performAll orders).withSide
        (Streams.sessionIn config packets ssrcs).1 with
      recorder := (first.performAll orders).recorder.flush } :=
    session_eq config recorder packets ssrcs
  have hstreams : now.streams = (Streams.takes config {} packets).1.table :=
    streams_takes first packets
  have hall : ∀ k ∈ (Streams.takes config {} packets).1.table.keys, k ∈ ssrcs := by
    intro k hk
    rw [← hstreams] at hk
    exact hssrcs.mem_iff.mpr hk
  obtain ⟨herrors, hdropped, hattempts⟩ := tallies_performAll first orders
  obtain ⟨hreceived, hgarbled⟩ := Streams.session_packets config packets ssrcs
  obtain ⟨hplayed, hthrown⟩ := Streams.session_frames config packets hall
  have hlength : fates.length = Streams.garbled orders + (Streams.plays orders).length :=
    length_fates first orders
  have hfates := length_eq_counts fates
  have hreceived' : last.received = packets.countP (·.1) := by rw [hlast]; exact hreceived
  have herrors' : last.decodeErrors = fates.count .undecodable := by
    rw [hlast]
    exact herrors.trans (Nat.zero_add _)
  have hdropped' : last.dropped = fates.count .unrecorded := by
    rw [hlast]
    exact hdropped.trans (Nat.zero_add _)
  have hthrown' : frames.length = (Streams.plays orders).length + discarded := by
    show frames.length = _ + (_ + Streams.discardedIn last.streams)
    rw [hlast]
    exact hthrown
  have hcarried : Streams.garbled orders + frames.length = packets.countP (·.1) := hgarbled
  refine ⟨by omega, hreceived', herrors', hdropped', ?_, ?_, hplayed, hthrown'⟩
  · rw [hlast]
    exact hattempts
  · rw [hlast]

/-- There is room for two streams. A third one comes when the first has a frame, which had come twice;
the other two are played out at the end, the later one first. One writing fails, and a packet comes
that carries nothing. -/
theorem accounts_for_packets_of_three :
    let config : ReceiverConfig := { maxRemoteStreams := 2 }
    let recorder : Recorder :=
      { faults := fun attempt _ => if attempt = 1 then some .writing else none }
    let packet (ssrc : UInt32) : Bool × Octets :=
      (true, (Packet.ofFrame ⟨7, 0, ssrc, .pcmu, [255]⟩).encode)
    let packets := [(true, []), packet 1, packet 1, packet 2, packet 3]
    let first : Receiver := { config, recorder }
    let now := packets.foldl (fun r p => r.take p.1 p.2) first
    let last := now.finishIn [3, 2]
    let orders := (Streams.sessionIn config packets [3, 2]).2
    let discarded := Streams.retiredIn orders + Streams.discardedIn last.streams
    [3, 2].Perm now.streams.keys ∧
      first.fates orders = [.undecodable, .recorded, .unrecorded, .recorded] ∧ discarded = 1 ∧
      last.received = last.decodeErrors + (first.fates orders).count .recorded + last.dropped +
        discarded ∧
      last.received = 5 ∧ last.decodeErrors = 1 ∧ last.dropped = 1 := by
  intro config recorder packet packets first now last orders discarded
  have hssrcs : [3, 2].Perm now.streams.keys := by decide +kernel
  have haccount := (accounts_for_packets config recorder packets [3, 2] hssrcs).1
  refine ⟨hssrcs, ?_, ?_, haccount, ?_, ?_, ?_⟩
  all_goals decide +kernel

end Receiver

end Parley
