import Parley.Proofs.Signaling.Reaction

/-!
# `Parley/Proofs/Signaling/Utterance.lean` — what a client says, word for word

`Saying` tells the messages of a client apart by their kind. `Utters` lists the messages themselves,
each with the input that calls for it and with the exact frame: a machine has no other way of
putting a frame together (`utters_step`). What the service learns from a client, or can never learn
from it, is read off this list.

Most handlers of messages say nothing at all, whatever they take note of (`Speechless`).
-/

set_option autoImplicit false

namespace Parley

open Parley.Wire

/-- Whether actions leave the service without a word. -/
def Speechless (actions : List Action) : Prop := ∀ frame, .send frame ∉ actions

theorem speechless_nil : Speechless [] := fun _ => List.not_mem_nil

theorem speechless_of_reports {actions : List Action} (h : ∀ a ∈ actions, a.isReport = true) :
    Speechless actions := by
  intro frame hmem
  exact absurd (h _ hmem) (by simp [Action.isReport])

namespace Machine

/-- The frame that says whether the client is muted. -/
def muteFrame (muted : Bool) : SignalFrame :=
  { kind := FrameKind.audioControl.number, audioControl := some { muted := some muted } }

/-- The frame that a message to the other attendees goes out in. -/
def messageFrame (message : OutgoingMessage) (lifetimeMs : UInt32) : SignalFrame :=
  { kind := FrameKind.dataMessage.number
    dataMessage := some { messages := [message.payload lifetimeMs] } }

/-- All that a client says, and what it says it upon. -/
inductive Utters (m : Machine) : Input → SignalFrame → Prop where
  | join {input : Input} (input_eq : input = .transportUp ∨ input = .submitJoin) :
      Utters m input (joinFrame m.config)
  /-- It subscribes when it is let in. -/
  | letIn {bytes : Octets} {now : Instant} (state : m.state = .authenticating) :
      Utters m (.message bytes now) m.subscribeFrame
  | pong {bytes : Octets} {now : Instant} (id : UInt32) :
      Utters m (.message bytes now) (pingPongFrame .pong id)
  | ping (state : m.state = .joined) : Utters m .ping (pingPongFrame .ping (m.lastPingId + 1))
  | anew (state : m.state = .joined) : Utters m .resubscribe m.subscribeFrame
  | muted {muted : Bool} (state : m.state = .joined) (change : m.muted ≠ muted) :
      Utters m (.setMute muted) (muteFrame muted)
  | message {message : OutgoingMessage} {lifetimeMs : UInt32} (state : m.state = .joined)
      (valid : message.validate = .ok lifetimeMs) :
      Utters m (.sendDataMessage message) (messageFrame message lifetimeMs)
  | farewell (state : m.state = .joined) : Utters m .leave leaveFrame

variable {m : Machine} {frame : SignalFrame}

/-! ## What says nothing -/

theorem speechless_moving {move : Move} {actions : Machine → Machine × List Action}
    (h : ∀ state, Speechless (actions { m with state }).2) :
    Speechless (m.moving move actions).2 := by
  cases hmove : m.state.after? move with
  | none =>
    rw [moving_of_none hmove]
    exact speechless_nil
  | some state =>
    rw [moving_of_some hmove]
    exact h state

theorem speechless_fail (reason : FailureReason) : Speechless (m.fail reason).2 :=
  speechless_moving fun _ _ => by simp

theorem speechless_transportLost : Speechless m.transportLost.2 := by
  unfold transportLost
  split
  · exact speechless_moving fun _ _ => by simp
  · exact speechless_nil

theorem speechless_transportClosed (code : Option UInt16) :
    Speechless (m.transportClosed code).2 := by
  rcases transportClosed_cases m code with h | ⟨-, reason, h⟩
  · rw [h]
    exact speechless_transportLost
  · rw [h]
    exact speechless_fail reason

theorem speechless_withBody {α : Type} {body : Option α} {handle : α → Machine × List Action}
    (h : ∀ a, Speechless (handle a).2) : Speechless (m.withBody body handle).2 := by
  cases body with
  | none => exact speechless_nil
  | some a => exact h a

theorem speechless_onLeaveAck : Speechless m.onLeaveAck.2 := by
  unfold onLeaveAck
  cases m.move? .remoteLeave <;> exact fun _ => by simp

theorem speechless_onIndex (index : IndexFrame) (now : Instant) :
    Speechless (m.onIndex index now).2 := by
  unfold onIndex
  split
  · exact speechless_nil
  · dsimp only
    split
    · exact speechless_of_reports isReport_sourceNews
    · split
      · exact speechless_nil
      · exact fun _ => by simp

theorem speechless_onSubscribeAck (ack : SubscribeAckFrame) :
    Speechless (m.onSubscribeAck ack).2 := by
  unfold onSubscribeAck
  split
  · exact speechless_nil
  · split
    · exact speechless_nil
    · exact fun _ => by simp

theorem speechless_onAudioStatus (status : UInt32) : Speechless (m.onAudioStatus status).2 := by
  have report : Speechless [.emit (.audioStatus status)] := fun _ => by simp
  unfold onAudioStatus
  split
  · exact report
  · dsimp only
    split
    · exact speechless_fail _
    · exact speechless_fail _
    · split
      · exact speechless_moving fun _ _ => by simp
      · exact report
    · exact report

theorem speechless_onDataMessage (f : DataMessageFrame) : Speechless (m.onDataMessage f).2 := by
  intro frame hmem
  rcases List.mem_append.mp hmem with hmem | hmem <;> split at hmem <;> simp at hmem

theorem speechless_onPresence (take : Presence → Presence × List Event) :
    Speechless (m.onPresence take).2 := by
  unfold onPresence
  split
  · exact fun _ => by simp
  · exact speechless_nil

/-! ## What says something -/

theorem utters_onJoinAck {bytes : Octets} {now : Instant} (ack : Option JoinAckFrame)
    (h : .send frame ∈ (m.onJoinAck ack now).2) : Utters m (.message bytes now) frame := by
  by_cases hstate : m.state = .authenticating
  · obtain ⟨turn, hstep⟩ := onJoinAck_of_authenticating hstate ack now
    rw [hstep] at h
    obtain rfl : frame = m.subscribeFrame := by simpa using h
    exact .letIn hstate
  · rw [onJoinAck, if_neg hstate] at h
    exact absurd h (speechless_nil _)

theorem utters_onPingPong {bytes : Octets} {now : Instant} (f : PingPongFrame)
    (h : .send frame ∈ (m.onPingPong f).2) : Utters m (.message bytes now) frame := by
  unfold onPingPong at h
  split at h
  · obtain rfl : frame = pingPongFrame .pong f.pingId := by simpa using h
    exact .pong f.pingId
  · exact absurd h (speechless_nil _)
  · exact absurd h (speechless_nil _)

theorem utters_onFrame {bytes : Octets} {now : Instant} {kind : FrameKind} {received : SignalFrame}
    (h : .send frame ∈ (m.onFrame kind received now).2) : Utters m (.message bytes now) frame := by
  have silent {actions : List Action} (hmem : .send frame ∈ actions) (hnot : Speechless actions) :
      Utters m (.message bytes now) frame := absurd hmem (hnot frame)
  cases kind with
  | joinAck => exact utters_onJoinAck _ h
  | pingPong =>
    cases hbody : received.pingPong with
    | none =>
      simp only [onFrame, hbody] at h
      exact silent h speechless_nil
    | some f =>
      simp only [onFrame, hbody] at h
      exact utters_onPingPong f h
  | leaveAck => exact silent h speechless_onLeaveAck
  | index => exact silent h (speechless_withBody fun index => speechless_onIndex index now)
  | subscribeAck => exact silent h (speechless_withBody speechless_onSubscribeAck)
  | audioMetadata => exact silent h (speechless_withBody fun _ => speechless_onPresence _)
  | audioStreamIdInfo => exact silent h (speechless_withBody fun _ => speechless_onPresence _)
  | audioStatus => exact silent h (speechless_withBody speechless_onAudioStatus)
  | dataMessage => exact silent h (speechless_withBody speechless_onDataMessage)
  | join | subscribe | pause | resume | leave | bitrates | audioControl | clientMetric =>
    exact silent h speechless_nil

theorem utters_onMessage {bytes : Octets} {now : Instant}
    (h : .send frame ∈ (m.onMessage bytes now).2) : Utters m (.message bytes now) frame := by
  unfold onMessage at h
  split at h
  · unfold onSignal at h
    split at h
    · exact absurd h (speechless_nil _)
    · split at h
      · exact absurd h (speechless_nil _)
      · exact utters_onFrame h
  · split at h <;> simp at h
  · split at h
    · exact absurd h (speechless_fail _ _)
    · exact absurd h (speechless_nil _)

theorem joinFrame_of_mem_moving {move : Move} (h : .send frame ∈ (m.moving move join).2) :
    frame = joinFrame m.config := by
  cases hmove : m.state.after? move with
  | none =>
    rw [moving_of_none hmove] at h
    exact absurd h (speechless_nil _)
  | some state =>
    rw [moving_of_some hmove] at h
    simpa [join] using h

theorem joinFrame_of_mem_transportUp (h : .send frame ∈ m.transportUp.2) :
    frame = joinFrame m.config := by
  unfold transportUp at h
  split at h
  · exact joinFrame_of_mem_moving h
  · cases hmove : m.state.after? .transportUp with
    | none =>
      rw [moving_of_none hmove] at h
      exact absurd h (speechless_nil _)
    | some state =>
      rw [moving_of_some hmove] at h
      exact joinFrame_of_mem_moving (m := { m with state }) h

theorem utters_ping (h : .send frame ∈ m.ping.2) : Utters m .ping frame := by
  unfold ping at h
  split at h
  · exact absurd h (speechless_nil _)
  · rename_i hjoined
    split at h
    · exact absurd h (speechless_transportLost _)
    · obtain rfl : frame = pingPongFrame .ping (m.lastPingId + 1) := by simpa using h
      exact .ping (joined_of_isJoined (by simpa using hjoined))

theorem utters_requestLeave (h : .send frame ∈ m.requestLeave.2) : Utters m .leave frame := by
  by_cases hjoined : m.state = .joined
  · rw [requestLeave_of_joined hjoined] at h
    obtain rfl : frame = leaveFrame := by simpa using h
    exact .farewell hjoined
  · have hnot : m.state.isJoined = false := by
      cases hs : m.state with
      | joined => exact absurd hs hjoined
      | _ => rfl
    have hsilent : Speechless m.requestLeave.2 := by
      simp only [requestLeave, hnot]
      exact speechless_moving fun _ _ => by simp
    exact absurd h (hsilent frame)

theorem utters_setMute {muted : Bool} (h : .send frame ∈ (m.setMute muted).2) :
    Utters m (.setMute muted) frame := by
  unfold setMute at h
  split at h
  · exact absurd h (speechless_nil _)
  · rename_i hchange
    split at h
    · rename_i hjoined
      obtain rfl : frame = muteFrame muted := by simpa [muteFrame] using h
      exact .muted (joined_of_isJoined hjoined) hchange
    · exact absurd h (speechless_nil _)

theorem utters_sendDataMessage {message : OutgoingMessage}
    (h : .send frame ∈ (m.sendDataMessage message).2) :
    Utters m (.sendDataMessage message) frame := by
  unfold sendDataMessage at h
  split at h
  · exact absurd h (speechless_nil _)
  · rename_i hjoined
    split at h
    · rename_i lifetimeMs hvalid
      obtain rfl : frame = messageFrame message lifetimeMs := by simpa [messageFrame] using h
      exact .message (joined_of_isJoined (by simpa using hjoined)) hvalid
    · exact absurd h (by simp)

theorem utters_resubscribe (h : .send frame ∈ m.resubscribe.2) : Utters m .resubscribe frame := by
  unfold resubscribe at h
  split at h
  · rename_i hjoined
    obtain rfl : frame = m.subscribeFrame := by simpa using h
    exact .anew (joined_of_isJoined hjoined)
  · exact absurd h (speechless_nil _)

/-- **The list is complete**: a client says nothing else. -/
theorem utters_step {input : Input} (h : .send frame ∈ (m.step input).2) :
    Utters m input frame := by
  cases input with
  | message bytes now => exact utters_onMessage h
  | transportUp =>
    rw [joinFrame_of_mem_transportUp h]
    exact .join (.inl rfl)
  | submitJoin =>
    rw [joinFrame_of_mem_moving h]
    exact .join (.inr rfl)
  | ping => exact utters_ping h
  | leave => exact utters_requestLeave h
  | setMute muted => exact utters_setMute h
  | sendDataMessage message => exact utters_sendDataMessage h
  | resubscribe => exact utters_resubscribe h
  | start =>
    have hsilent : Speechless m.start.2 := speechless_moving fun _ => speechless_nil
    exact absurd h (hsilent frame)
  | transportLost => exact absurd h (speechless_transportLost frame)
  | transportClosed code => exact absurd h (speechless_transportClosed code frame)
  | reconnectExhausted attempts => exact absurd h (speechless_fail _ frame)

end Machine

end Parley
