import Parley.Proofs.Pipeline.Sending
import Parley.Proofs.Rtp.Numbering

/-!
# `Parley/Proofs/Pipeline/Dispatch.lean` — what becomes of each frame

A frame that is made while the client is joined meets with one of three fates (`Dispatch`): it is
put into the queue, it finds the queue full and is dropped, or nobody takes packets any more. The
frames of a run, each with its fate, are its `Transit.history`.

A frame is numbered when it is made, before its fate is known, and a chunk that comes while the
client is not joined makes none. So the counters of a sender can be told from the history
(`Transit.Books`), and from the numbers of two packets how many frames between them were dropped, as
far as sixteen bits can tell (`Transit.accounts_for_frames`).
-/

set_option autoImplicit false

namespace Parley

open Parley.Rtp Parley.Rtp.Packetizer

/-! ## Frames and their fates -/

/-- What becomes of a frame. -/
inductive Dispatch where
  | queued
  /-- It finds the queue full. -/
  | dropped
  /-- Nobody takes packets any more. -/
  | refused
  deriving DecidableEq

/-- A frame that was made while the client was joined. -/
structure Made where
  frame : Frame
  fate : Dispatch

namespace Made

/-- The number of the packet for the frame. -/
def number (m : Made) : UInt16 := (Packet.ofFrame m.frame).sequence

/-- Frames that meet with the same fate. -/
def all (fate : Dispatch) (frames : List Frame) : List Made := frames.map fun frame => ⟨frame, fate⟩

/-- The frames that were put into the queue. -/
def queued (made : List Made) : List Frame := (made.filter (·.fate = .queued)).map (·.frame)

/-- How many frames found the queue full. -/
def dropped (made : List Made) : Nat := made.countP (·.fate = .dropped)

theorem queued_append (made more : List Made) :
    queued (made ++ more) = queued made ++ queued more := by
  rw [queued, List.filter_append, List.map_append, queued, queued]

theorem dropped_append (made more : List Made) :
    dropped (made ++ more) = dropped made + dropped more :=
  List.countP_append

theorem frames_all (fate : Dispatch) (frames : List Frame) :
    (all fate frames).map (·.frame) = frames := by
  simp [all, Function.comp_def]

theorem queued_all (fate : Dispatch) (frames : List Frame) :
    queued (all fate frames) = if fate = .queued then frames else [] := by
  split
  next h => simp [queued, all, List.filter_map, Function.comp_def, h]
  next h => simp [queued, all, h]

theorem dropped_all (fate : Dispatch) (frames : List Frame) :
    dropped (all fate frames) = if fate = .dropped then frames.length else 0 := by
  split
  next h => simp [dropped, all, Function.comp_def, h]
  next h => simp [dropped, all, h]

theorem fate_of_mem_all {fate : Dispatch} {frames : List Frame} {m : Made}
    (h : m ∈ all fate frames) : m.fate = fate := by
  obtain ⟨frame, -, rfl⟩ := List.mem_map.mp h
  rfl

theorem length_of_not_refused {made : List Made} (h : ∀ m ∈ made, m.fate ≠ .refused) :
    (queued made).length + dropped made = made.length := by
  induction made with
  | nil => rfl
  | cons m rest ih =>
    have hrest := ih fun other hother => h other (List.mem_cons_of_mem m hother)
    rw [List.length_cons, ← hrest]
    cases hfate : m.fate with
    | queued => simp [queued, dropped, hfate, Nat.add_right_comm]
    | dropped => simp [queued, dropped, hfate, Nat.add_assoc]
    | refused => exact absurd hfate (h m List.mem_cons_self)

end Made

namespace PacketQueue

/-- What becomes of frames that come to a queue together. -/
def fates (q : PacketQueue) (frames : List Frame) : List Made :=
  if q.closed then Made.all .refused frames
  else Made.all .queued (frames.take q.room) ++ Made.all .dropped (frames.drop q.room)

variable {q : PacketQueue} (frames : List Frame)

theorem frames_fates (q : PacketQueue) : (q.fates frames).map (·.frame) = frames := by
  unfold fates
  split
  · exact Made.frames_all _ _
  · rw [List.map_append, Made.frames_all, Made.frames_all, List.take_append_drop]

theorem fates_of_closed (h : q.closed = true) : q.fates frames = Made.all .refused frames :=
  if_pos h

theorem queued_fates (h : q.closed = false) :
    Made.queued (q.fates frames) = frames.take q.room := by
  rw [fates, h, if_neg Bool.false_ne_true, Made.queued_append, Made.queued_all, Made.queued_all]
  simp

theorem dropped_fates (h : q.closed = false) :
    Made.dropped (q.fates frames) = (frames.drop q.room).length := by
  rw [fates, h, if_neg Bool.false_ne_true, Made.dropped_append, Made.dropped_all, Made.dropped_all]
  simp

theorem not_refused_of_mem_fates {m : Made} (h : q.closed = false) (hm : m ∈ q.fates frames) :
    m.fate ≠ .refused := by
  rw [fates, h, if_neg Bool.false_ne_true] at hm
  rcases List.mem_append.mp hm with hm | hm
  · rw [Made.fate_of_mem_all hm]
    exact Dispatch.noConfusion
  · rw [Made.fate_of_mem_all hm]
    exact Dispatch.noConfusion

variable {made : List Made}

theorem unrefused_append (hopen : q.closed = false) (h : ∀ m ∈ made, m.fate ≠ .refused) :
    ∀ m ∈ made ++ q.fates frames, m.fate ≠ .refused := by
  intro m hm
  rcases List.mem_append.mp hm with hm | hm
  · exact h m hm
  · exact not_refused_of_mem_fates frames hopen hm

/-- A queue that has refused a frame refuses all those that come later. -/
theorem refused_append (h : q.closed = false → ∀ m ∈ made, m.fate ≠ .refused)
    (hmade : made.Pairwise fun m later => m.fate = .refused → later.fate = .refused) :
    (made ++ q.fates frames).Pairwise fun m later => m.fate = .refused → later.fate = .refused := by
  have hlater : ∀ m ∈ made ++ q.fates frames, ∀ later ∈ q.fates frames,
      m.fate = .refused → later.fate = .refused := by
    intro m hm later hnew hrefused
    cases hclosed : q.closed with
    | true =>
      rw [fates_of_closed frames hclosed] at hnew
      exact Made.fate_of_mem_all hnew
    | false => exact absurd hrefused (unrefused_append frames hclosed (h hclosed) m hm)
  refine List.pairwise_append.mpr ⟨hmade, ?_, ?_⟩
  · apply List.pairwise_of_forall_mem_list
    intro m hm
    exact hlater m (List.mem_append_right made hm)
  · intro m hm
    exact hlater m (List.mem_append_left _ hm)

end PacketQueue

/-! ## What a tick does to the sender -/

namespace Sender

/-- The sender once frames have met with their fates. -/
def settle (s : Sender) (frames : List Frame) : Sender :=
  let made := s.queue.fates frames
  { s with
    sent := s.sent + (Made.queued made).length
    dropped := s.dropped + Made.dropped made
    queue := { s.queue with waiting := s.queue.waiting ++ written (Made.queued made) } }

variable (s : Sender)

theorem enqueueAll_snd (frames : List Frame) : (s.enqueueAll frames).2 = s.settle frames := by
  cases hclosed : s.queue.closed with
  | false =>
    rw [enqueueAll_of_open hclosed, settle, PacketQueue.queued_fates frames hclosed,
      PacketQueue.dropped_fates frames hclosed]
    rfl
  | true =>
    have hsettle : s.settle frames = s := by
      rw [settle, PacketQueue.fates_of_closed frames hclosed, Made.queued_all, Made.dropped_all]
      simp [written]
    rw [hsettle]
    cases frames with
    | nil => rfl
    | cons frame rest => rw [enqueueAll, enqueue, if_pos hclosed]

theorem onChunk_snd (codec : Codec) (samples : List Int16) :
    (s.onChunk true codec samples).2 =
      let (frames, packetizer) := s.packetizer.callAll [.setCodec codec, .push samples]
      { s with packetizer }.settle frames := by
  rw [onChunk, if_pos rfl]
  simp only [callAll, call, List.nil_append, List.append_nil]
  exact enqueueAll_snd _ _

theorem finish_joined :
    s.finish true =
      let (frames, packetizer) := s.packetizer.callAll [.flush]
      { s with packetizer }.settle frames := by
  simp only [callAll, call, List.append_nil, ← enqueueAll_snd]
  unfold finish
  cases hflush : s.packetizer.flush with
  | mk frame? packetizer =>
    cases frame? with
    | none => rfl
    | some frame =>
      show (if true = true then _ else _) = _
      rw [if_pos rfl, Option.toList_some, enqueueAll]
      cases Sender.enqueue { s with packetizer } frame with
      | none => rfl
      | some next => rfl

theorem finish_idle : s.finish false = { s with packetizer := s.packetizer.flush.2 } := by
  unfold finish
  cases s.packetizer.flush with
  | mk frame? packetizer =>
    cases frame? with
    | none => rfl
    | some frame => rfl

end Sender

namespace SendPath

/-- What the next tick asks of the packetizer if the client is joined. -/
def calls (p : SendPath) (codec : Codec) : List Call :=
  match p.playback.chunks with
  | [] => [.flush]
  | samples :: _ => [.setCodec codec, .push samples]

variable {p : SendPath}

theorem sender_stop (p : SendPath) : p.stop.sender = p.sender := by
  unfold stop
  split <;> rfl

theorem ended_stop (p : SendPath) : p.stop.ended = true := by
  unfold stop
  split
  next h => exact h
  next => rfl

theorem sender_tick_joined (hgoing : p.ended = false) (codec : Codec) :
    (p.tick true codec).sender =
      let (frames, packetizer) := p.sender.packetizer.callAll (p.calls codec)
      { p.sender with packetizer }.settle frames := by
  rw [tick, hgoing, if_neg Bool.false_ne_true, calls]
  cases p.playback.chunks with
  | nil => exact (sender_stop _).trans p.sender.finish_joined
  | cons samples chunks =>
    refine Eq.trans ?_ (p.sender.onChunk_snd codec samples)
    dsimp only
    split
    · rfl
    · exact sender_stop _

end SendPath

/-! ## What happens to a path -/

/-- What happens to a path, its end included. -/
inductive Happening where
  | occasion (occasion : Occasion)
  /-- Nobody will take packets any more. -/
  | queueClosed
  | stopped

/-- Whether it is a tick that finds the client joined. -/
def Happening.isJoinedTick : Happening → Bool
  | .occasion (.tick joined _) => joined
  | _ => false

namespace Transit

/-- A path before anything has happened, for any audio. -/
def ofPlayback (playback : Playback) (capacity : Nat) (packetizer : Packetizer) : Transit :=
  { path := { sender := { packetizer, queue := { capacity } }, playback } }

def after (t : Transit) : Happening → Transit
  | .occasion occasion => t.step occasion
  | .queueClosed => { t with path := t.path.closeQueue }
  | .stopped => { t with path := t.path.stop }

def afterAll (t : Transit) (happenings : List Happening) : Transit := happenings.foldl after t

/-- The frames that are made for a client that is joined, with their fates. -/
def made (t : Transit) : Happening → List Made
  | .occasion (.tick true codec) =>
    if t.path.ended then []
    else t.path.sender.queue.fates (t.path.sender.packetizer.callAll (t.path.calls codec)).1
  | _ => []

/-- The number of chunks that come while the client is not joined. -/
def missed (t : Transit) : Happening → Nat
  | .occasion (.tick false _) => if t.path.ended || t.path.playback.chunks.isEmpty then 0 else 1
  | _ => 0

/-- The frames that are made in all that happens, in order. -/
def history (t : Transit) : List Happening → List Made
  | [] => []
  | happening :: rest => t.made happening ++ (t.after happening).history rest

/-- The number of chunks that come while the client is not joined, in all that happens. -/
def missedIn (t : Transit) : List Happening → Nat
  | [] => 0
  | happening :: rest => t.missed happening + (t.after happening).missedIn rest

/-- A packetizer that is at this place of its stream, with too little pending for a frame. -/
structure StandsAt (p : Packetizer) (ssrc : UInt32) (there : Place) : Prop where
  ssrc : p.ssrc = ssrc
  place : p.place = there
  serves : ∃ s, p.Serves s

/-- What the books say of a path whose stream began at this place: these frames were made, and so
many chunks were missed. -/
structure Books (ssrc : UInt32) (first : Place) (made : List Made) (missed : Nat) (t : Transit) :
    Prop where
  enqueued : t.enqueued = written (Made.queued made)
  sent : t.path.sender.sent = (Made.queued made).length
  dropped : t.path.sender.dropped = Made.dropped made + missed
  unrefused : t.path.sender.queue.closed = false → ∀ m ∈ made, m.fate ≠ .refused
  /-- After a frame is refused there are only more of these. -/
  refused : made.Pairwise fun m later => m.fate = .refused → later.fate = .refused
  numbered : ∃ there, Leads ssrc first (made.map (·.frame)) there ∧
    (t.path.ended = false → StandsAt t.path.sender.packetizer ssrc there)

variable {t : Transit} {ssrc : UInt32} {first : Place} {made : List Made} {missed : Nat}

theorem books_ofPlayback (playback : Playback) (capacity : Nat) (codec : Codec)
    (inputRate : UInt32) (channels : UInt16) (ssrc : UInt32) (sequence : UInt16)
    (timestamp : UInt32) :
    Books ssrc ⟨sequence, timestamp⟩ [] 0
      (ofPlayback playback capacity
        (.new codec inputRate channels ssrc sequence timestamp)) where
  enqueued := rfl
  sent := rfl
  dropped := rfl
  unrefused _ _ h := nomatch h
  refused := .nil
  numbered := ⟨_, .nil _, fun _ => ⟨rfl, rfl, _, serves_new ..⟩⟩

theorem Books.tick_joined (h : Books ssrc first made missed t) (codec : Codec) :
    Books ssrc first (made ++ t.made (.occasion (.tick true codec))) missed
      (t.step (.tick true codec)) := by
  cases hended : t.path.ended with
  | true =>
    have htick : t.path.tick true codec = t.path := by rw [SendPath.tick, if_pos hended]
    have hmade : t.made (.occasion (.tick true codec)) = [] := if_pos hended
    show Books ssrc first _ missed { t with path := t.path.tick true codec }
    rw [htick, hmade, List.append_nil]
    exact h
  | false =>
    obtain ⟨there, hleads, hstands⟩ := h.numbered
    obtain ⟨hssrc, hplace, stint, hserves⟩ := hstands hended
    obtain ⟨hnext, hsource, hserves'⟩ := hserves.callAll (t.path.calls codec)
    have hsender := SendPath.sender_tick_joined hended codec
    have hmade : t.made (.occasion (.tick true codec)) = t.path.sender.queue.fates
        (t.path.sender.packetizer.callAll (t.path.calls codec)).1 := by
      rw [Transit.made, hended, if_neg Bool.false_ne_true]
    rw [hmade]
    show Books ssrc first _ missed { t with path := t.path.tick true codec }
    generalize t.path.sender.packetizer.callAll (t.path.calls codec) = result at *
    obtain ⟨frames, packetizer⟩ := result
    dsimp only at *
    constructor
    · show t.taken ++ (t.path.tick true codec).sender.queue.waiting = _
      have henqueued : t.taken ++ t.path.sender.queue.waiting = written (Made.queued made) :=
        h.enqueued
      rw [hsender, Made.queued_append, written, List.map_append]
      show t.taken ++ (t.path.sender.queue.waiting ++ _) = _
      rw [← List.append_assoc, henqueued]
      rfl
    · rw [hsender, Made.queued_append, List.length_append, ← h.sent]
      rfl
    · rw [hsender, Made.dropped_append, Nat.add_right_comm, ← h.dropped]
      rfl
    · intro hstill
      rw [hsender] at hstill
      exact PacketQueue.unrefused_append frames hstill (h.unrefused hstill)
    · exact PacketQueue.refused_append frames h.unrefused h.refused
    · refine ⟨packetizer.place, ?_, fun _ => ?_⟩
      · rw [List.map_append, PacketQueue.frames_fates]
        exact hleads.trans (hplace ▸ hssrc ▸ hnext)
      · rw [hsender]
        exact ⟨(congrArg Prod.fst hsource).trans hssrc, rfl, _, hserves'⟩

/-- Nothing comes into the queue, and the packetizer of a path that goes on is left alone. -/
structure Quiet (t next : Transit) (missed : Nat) : Prop where
  enqueued : next.enqueued = t.enqueued
  sent : next.path.sender.sent = t.path.sender.sent
  dropped : next.path.sender.dropped = t.path.sender.dropped + missed
  opened : next.path.sender.queue.closed = false → t.path.sender.queue.closed = false
  going : next.path.ended = false →
    t.path.ended = false ∧ next.path.sender.packetizer = t.path.sender.packetizer

theorem quiet_refl (t : Transit) : Quiet t t 0 := ⟨rfl, rfl, rfl, id, fun h => ⟨h, rfl⟩⟩

theorem Books.quiet {next : Transit} {more : Nat} (h : Books ssrc first made missed t)
    (hquiet : Quiet t next more) : Books ssrc first made (missed + more) next where
  enqueued := hquiet.enqueued.trans h.enqueued
  sent := hquiet.sent.trans h.sent
  dropped := by rw [hquiet.dropped, h.dropped, Nat.add_assoc]
  unrefused hopen := h.unrefused (hquiet.opened hopen)
  refused := h.refused
  numbered := by
    obtain ⟨there, hleads, hstands⟩ := h.numbered
    refine ⟨there, hleads, fun hgoing => ?_⟩
    obtain ⟨hwas, hsame⟩ := hquiet.going hgoing
    rw [hsame]
    exact hstands hwas

/-- A path that stops after a change to its packetizer at most. -/
theorem quiet_stop {p : SendPath} (packetizer : Packetizer)
    (hsender : p.sender = { t.path.sender with packetizer }) :
    Quiet t { t with path := p.stop } 0 := by
  have hstop : p.stop.sender = { t.path.sender with packetizer } := (p.sender_stop).trans hsender
  constructor
  · exact congrArg (t.taken ++ ·.queue.waiting) hstop
  · exact (congrArg Sender.sent hstop).trans rfl
  · exact (congrArg Sender.dropped hstop).trans rfl
  · intro hopen
    rw [hstop] at hopen
    exact hopen
  · intro hgoing
    exact absurd p.ended_stop (by rw [hgoing]; exact Bool.false_ne_true)

theorem quiet_tick_idle (t : Transit) (codec : Codec) :
    Quiet t (t.step (.tick false codec)) (t.missed (.occasion (.tick false codec))) := by
  show Quiet t { t with path := t.path.tick false codec } _
  cases hended : t.path.ended with
  | true =>
    have htick : t.path.tick false codec = t.path := if_pos hended
    have hmissed : t.missed (.occasion (.tick false codec)) = 0 := by
      rw [Transit.missed, hended, Bool.true_or, if_pos rfl]
    rw [htick, hmissed]
    exact t.quiet_refl
  | false =>
    have hgoing : ¬t.path.ended = true := by rw [hended]; exact Bool.false_ne_true
    cases hchunks : t.path.playback.chunks with
    | nil =>
      -- the last frame is made and thrown away, but the path is over
      have htick : t.path.tick false codec =
          { t.path with sender := t.path.sender.finish false }.stop := by
        rw [SendPath.tick, if_neg hgoing, hchunks]
      have hmissed : t.missed (.occasion (.tick false codec)) = 0 := by
        rw [Transit.missed, hchunks, List.isEmpty_nil, Bool.or_true, if_pos rfl]
      rw [htick, hmissed]
      exact quiet_stop t.path.sender.packetizer.flush.2 t.path.sender.finish_idle
    | cons samples chunks =>
      have htick : t.path.tick false codec =
          { t.path with
            sender := { t.path.sender with dropped := t.path.sender.dropped + 1 }
            playback := { t.path.playback with chunks } } := by
        rw [SendPath.tick, if_neg hgoing, hchunks]
        rfl
      have hmissed : t.missed (.occasion (.tick false codec)) = 1 := by
        rw [Transit.missed, hended, hchunks]
        rfl
      rw [htick, hmissed]
      exact ⟨rfl, rfl, rfl, id, fun _ => ⟨hended, rfl⟩⟩

/-- Nothing but a tick that finds the client joined puts anything into the queue. -/
theorem quiet_after (t : Transit) {happening : Happening}
    (h : happening.isJoinedTick = false) :
    Quiet t (t.after happening) (t.missed happening) := by
  cases happening with
  | occasion occasion =>
    cases occasion with
    | tick joined codec =>
      obtain rfl : joined = false := h
      exact t.quiet_tick_idle codec
    | take count => exact ⟨t.enqueued_take count, rfl, rfl, id, fun hgoing => ⟨hgoing, rfl⟩⟩
  | queueClosed =>
    exact ⟨rfl, rfl, rfl, fun hopen => Bool.noConfusion hopen, fun hgoing => ⟨hgoing, rfl⟩⟩
  | stopped => exact quiet_stop t.path.sender.packetizer rfl

theorem made_of_not_joined (t : Transit) {happening : Happening}
    (h : happening.isJoinedTick = false) : t.made happening = [] := by
  cases happening with
  | occasion occasion =>
    cases occasion with
    | tick joined codec =>
      obtain rfl : joined = false := h
      rfl
    | take count => rfl
  | queueClosed | stopped => rfl

theorem Books.after (h : Books ssrc first made missed t) (happening : Happening) :
    Books ssrc first (made ++ t.made happening) (missed + t.missed happening)
      (t.after happening) := by
  cases hjoined : happening.isJoinedTick with
  | false =>
    rw [t.made_of_not_joined hjoined, List.append_nil]
    exact h.quiet (t.quiet_after hjoined)
  | true =>
    match happening, hjoined with
    | .occasion (.tick true codec), _ => exact h.tick_joined codec

theorem Books.afterAll (h : Books ssrc first made missed t) (happenings : List Happening) :
    Books ssrc first (made ++ t.history happenings) (missed + t.missedIn happenings)
      (t.afterAll happenings) := by
  induction happenings generalizing t made missed with
  | nil =>
    rw [history, List.append_nil]
    exact h
  | cons happening rest ih =>
    have hrest := ih (h.after happening)
    rwa [List.append_assoc, Nat.add_assoc] at hrest

end Transit

/-! ## What the numbers tell -/

namespace Rtp.Packetizer

variable {ssrc : UInt32} {here there : Place} {front between rest : List Frame} {frame next : Frame}

theorem Leads.sequence_of_append (h : Leads ssrc here (front ++ frame :: rest) there) :
    frame.sequence = here.sequence + UInt16.ofNat front.length := by
  have hframe := (h.getElem_sequence front.length (by simp)).2
  simpa using hframe

/-- The numbers of two frames tell how many were made between them, up to multiples of 65536. -/
theorem Leads.sequence_of_between
    (h : Leads ssrc here (front ++ frame :: (between ++ next :: rest)) there) :
    next.sequence = frame.sequence + 1 + UInt16.ofNat between.length ∧
      (next.sequence = frame.sequence + 1 ↔ 65536 ∣ between.length) := by
  have hframe := h.sequence_of_append
  have hsplit : front ++ frame :: (between ++ next :: rest) =
      (front ++ frame :: between) ++ next :: rest := by
    rw [List.append_assoc, List.cons_append]
  rw [hsplit] at h
  have hnext : next.sequence = frame.sequence + 1 + UInt16.ofNat between.length := by
    rw [h.sequence_of_append, hframe, List.length_append, List.length_cons,
      Nat.add_comm between.length, UInt16.ofNat_add, UInt16.ofNat_add, UInt16.add_assoc,
      UInt16.add_assoc]
    rfl
  have hzero : UInt16.ofNat between.length = 0 ↔ 65536 ∣ between.length := by
    rw [← UInt16.toNat_inj, UInt16.toNat_ofNat', Nat.dvd_iff_mod_eq_zero]
    rfl
  refine ⟨hnext, ?_⟩
  rw [hnext, ← hzero]
  simp

end Rtp.Packetizer

namespace Transit

/-- What holds of a path whose stream began at the number `sequence`, after all these happenings. -/
structure AccountsForFrames (start : Transit) (sequence : UInt16) (happenings : List Happening) :
    Prop where
  /-- Nothing is put into the queue unless a tick finds the client joined. -/
  idle : ∀ happening : Happening, happening.isJoinedTick = false →
    ((start.afterAll happenings).after happening).enqueued =
      (start.afterAll happenings).enqueued
  /-- As long as the queue is open each frame was sent, or found it full. -/
  whole : (start.afterAll happenings).path.sender.queue.closed = false →
    (start.afterAll happenings).path.sender.sent + Made.dropped (start.history happenings) =
      (start.history happenings).length
  /-- Whatever else was dropped are chunks that came while the client was not joined. -/
  dropped : (start.afterAll happenings).path.sender.dropped =
    Made.dropped (start.history happenings) + start.missedIn happenings
  inOrder : (start.afterAll happenings).enqueued =
    written (Made.queued (start.history happenings))
  numbered : ∀ k, ∀ h : k < (start.history happenings).length,
    (start.history happenings)[k].number = sequence + UInt16.ofNat k
  /-- Between a packet and the next are the frames that found the queue full, and those alone. The
  numbers of the two tell how many they are, up to multiples of 65536. -/
  gaps : ∀ before m between next later,
    start.history happenings = before ++ m :: (between ++ next :: later) →
    m.fate = .queued → next.fate = .queued → (∀ other ∈ between, other.fate ≠ .queued) →
    (∀ other ∈ between, other.fate = .dropped) ∧
      next.number = m.number + 1 + UInt16.ofNat between.length ∧
      (next.number = m.number + 1 ↔ 65536 ∣ between.length)

/-- **Every frame is accounted for.** Whatever happens to a path, and in whatever order: packets
come into the queue in the order of their frames, and only while the client is joined; the counters
tell how many frames were sent and dropped, as long as somebody takes packets; and the frames are
numbered as they are made, so that the numbers leave out those that found the queue full, and no
others. -/
theorem accounts_for_frames (playback : Playback) (capacity : Nat) (codec : Codec)
    (inputRate : UInt32) (channels : UInt16) (ssrc : UInt32) (sequence : UInt16)
    (timestamp : UInt32) (happenings : List Happening) :
    (ofPlayback playback capacity
      (.new codec inputRate channels ssrc sequence timestamp)).AccountsForFrames sequence
        happenings := by
  let start := ofPlayback playback capacity
    (.new codec inputRate channels ssrc sequence timestamp)
  have hbooks := (books_ofPlayback playback capacity codec inputRate channels ssrc sequence
    timestamp).afterAll happenings
  rw [List.nil_append, Nat.zero_add] at hbooks
  obtain ⟨there, hleads, -⟩ := hbooks.numbered
  constructor
  · intro happening hidle
    exact (quiet_after _ hidle).enqueued
  · intro hopen
    rw [hbooks.sent]
    exact Made.length_of_not_refused (hbooks.unrefused hopen)
  · exact hbooks.dropped
  · exact hbooks.enqueued
  · intro k hk
    have hlength : k < ((start.history happenings).map (·.frame)).length := by
      rwa [List.length_map]
    rw [← (hleads.getElem_sequence k hlength).2, List.getElem_map]
    rfl
  · intro before m between next later hsplit hm hnext hbetween
    have hrefused := hbooks.refused
    rw [hsplit] at hleads hrefused
    have hnumbers : Leads ssrc ⟨sequence, timestamp⟩ (before.map (·.frame) ++ m.frame ::
        (between.map (·.frame) ++ next.frame :: later.map (·.frame))) there := by
      simpa using hleads
    have hgap := hnumbers.sequence_of_between
    rw [List.length_map] at hgap
    refine ⟨fun other hother => ?_, hgap⟩
    -- a frame that was refused is not followed by one that was queued
    have hafter := (List.pairwise_cons.mp (List.pairwise_append.mp hrefused).2.1).2
    have hthen := (List.pairwise_append.mp hafter).2.2 other hother next List.mem_cons_self
    cases hfate : other.fate with
    | queued => exact absurd hfate (hbetween other hother)
    | dropped => rfl
    | refused => exact absurd (hthen hfate) (by rw [hnext]; exact Dispatch.noConfusion)

end Transit

end Parley
