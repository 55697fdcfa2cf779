import Parley.Signaling.Machine

/-!
# `Parley/Proofs/Signaling/Reaction.lean` — what one input can do to a machine

A machine has a dozen inputs and eight states, but as far as its state and its connection are
concerned only a few things ever happen in a step: it reports news, it says one thing to the
service, or it makes one move of the lifecycle. `Reaction` lists them, each with the state before
it, the machine after it and the actions it asks for, and `reaction_step` says that the list is
complete. What a run keeps is then shown by going through the list, without opening a handler.

`Saying` is what a message of the client says, read off its frame as the service reads it. What the
list leaves open is which entry a given input leads to; where that matters, an equation beside the
list says so: `step_of_isJoinAck` for an answer to a join that is waited for, and one for each way
in which a connection comes up, is lost or is left.
-/

set_option autoImplicit false

namespace Parley

open Parley.Wire

/-! ## What a message says -/

/-- What a client says to the service with one message. -/
inductive Saying where
  | join
  | pong
  | subscribe
  | ping
  | audioControl
  | dataMessage
  | media
  | leave
  /-- Anything else that a message could say. -/
  | other
  deriving DecidableEq

namespace Saying

/-- What a signal frame says. A sign of life is asked for or given, as its body has it. -/
def ofFrame (f : SignalFrame) : Saying :=
  match FrameKind.ofNumber? f.kind with
  | some .join => .join
  | some .subscribe => .subscribe
  | some .audioControl => .audioControl
  | some .dataMessage => .dataMessage
  | some .leave => .leave
  | some .pingPong =>
    match f.pingPong.bind fun body => PingPongKind.ofNumber? body.kind with
    | some .ping => .ping
    | some .pong => .pong
    | none => .other
  | _ => .other

def of : Content → Saying
  | .signal frame => ofFrame frame
  | .media _ => .media

/-- Whether a client says this only while it is joined, and any number of times. -/
def isSession : Saying → Bool
  | .subscribe | .ping | .pong | .audioControl | .dataMessage | .media => true
  | _ => false

@[simp] theorem ofFrame_joinFrame (c : SignalingConfig) :
    ofFrame (Machine.joinFrame c) = .join := rfl

end Saying

/-! ## What an input is -/

def Wire.IsJoinAck (bytes : Octets) : Prop :=
  ∃ frame, Envelope.decode bytes = .ok (.signal frame) ∧
    FrameKind.ofNumber? frame.kind = some .joinAck

def Machine.Input.IsJoinAck : Machine.Input → Prop
  | .message bytes _ => Wire.IsJoinAck bytes
  | _ => False

/-- News that do not mark a turn of the session. -/
def Event.isPlain : Event → Bool
  | .joined _ _ | .leaveAcknowledged | .closed | .failed _ => false
  | _ => true

/-- News of who is there and how they sound. -/
def Event.isPresence : Event → Bool
  | .attendeeJoined _ | .attendeeLeft _ | .attendeeDropped _ | .attendeeMuted _
  | .attendeeUnmuted _ | .volumes _ | .signalStrengths _ => true
  | _ => false

theorem Event.isPlain_of_isPresence {e : Event} (h : e.isPresence = true) : e.isPlain = true := by
  cases e <;> first | rfl | exact h

/-- An action that neither uses the connection nor marks a turn of the session. -/
def Action.isReport : Action → Bool
  | .emit event => event.isPlain
  | .deliver _ => true
  | _ => false

namespace Machine

/-- The frame that says goodbye. -/
def leaveFrame : SignalFrame := { kind := FrameKind.leave.number, leave := some {} }

/-- All that an input can do to a machine, as far as its state and its connection are concerned. -/
inductive Reaction (m : Machine) : Input → Machine → List Action → Prop where
  /-- The state stays, and nothing is asked for but reports. -/
  | quiet {input : Input} {next : Machine} {actions : List Action} (state : next.state = m.state)
      (reports : ∀ a ∈ actions, a.isReport = true) : Reaction m input next actions
  | begun (state : m.state = .disconnected) :
      Reaction m .start { m with state := .connecting } []
  /-- A connection is up, and the join goes out over it. -/
  | joining (state : m.state = .connecting ∨ m.state = .reconnecting) :
      Reaction m .transportUp { m with state := .authenticating, joinsSent := m.joinsSent + 1 }
        [.send (joinFrame m.config)]
  /-- The join goes out because it was asked for. -/
  | submitted (state : m.state = .connected) :
      Reaction m .submitJoin { m with state := .authenticating, joinsSent := m.joinsSent + 1 }
        [.send (joinFrame m.config)]
  | admitted {input : Input} {next : Machine} (state : m.state = .authenticating)
      (answer : input.IsJoinAck) (state' : next.state = .joined) :
      Reaction m input next
        [.emit (.joined next.codec next.turn), .send next.subscribeFrame]
  /-- The service gets the sign of life it asks for, joined or not. -/
  | answered {bytes : Octets} {now : Instant} (id : UInt32) (state : m.state.isTerminal = false) :
      Reaction m (.message bytes now) m [.send (pingPongFrame .pong id)]
  /-- A joined client says one thing. -/
  | spoke {input : Input} {next : Machine} (frame : SignalFrame) (state : m.state = .joined)
      (state' : next.state = .joined) (session : (Saying.ofFrame frame).isSession = true) :
      Reaction m input next [.send frame]
  | lost {input : Input} (state : m.state.hasTransport = true) :
      Reaction m input
        { m with state := .reconnecting, indexed := false, outstandingPings := 0 } [.reconnect]
  | failed {input : Input} (reason : FailureReason) (state : m.state.isTerminal = false) :
      Reaction m input { m with state := .failed } [.emit (.failed reason), .closeTransport]
  /-- The service ends the session. -/
  | ended {bytes : Octets} {now : Instant} (state : m.state = .joined) :
      Reaction m (.message bytes now) { m with state := .closed } [.emit .closed, .closeTransport]
  /-- The service acknowledges a leave that nobody asked for. -/
  | released {bytes : Octets} {now : Instant} (state : m.state.isTerminal = false) :
      Reaction m (.message bytes now) { m with state := .closed }
        [.emit .leaveAcknowledged, .emit .closed, .closeTransport]
  /-- The service acknowledges the leave of a closed client. -/
  | acknowledged {bytes : Octets} {now : Instant} (state : m.state = .closed) :
      Reaction m (.message bytes now) m [.emit .leaveAcknowledged, .closeTransport]
  | left (state : m.state = .joined) :
      Reaction m .leave { m with state := .closed } [.send leaveFrame, .emit .closed]
  /-- A client that is not joined has nobody to say goodbye to. -/
  | withdrew (state : m.state.isTerminal = false) (notJoined : m.state ≠ .joined) :
      Reaction m .leave { m with state := .closed } [.emit .closed]

/-! ## The list is complete

One lemma for each handler that can do more than report, then the inputs in turn. -/

theorem moving_of_some {m : Machine} {move : Move} {s : Lifecycle}
    {actions : Machine → Machine × List Action} (h : m.state.after? move = some s) :
    m.moving move actions = actions { m with state := s } := by
  simp [moving, move?, h]

theorem moving_of_none {m : Machine} {move : Move} {actions : Machine → Machine × List Action}
    (h : m.state.after? move = none) : m.moving move actions = (m, []) := by
  simp [moving, move?, h]

theorem Reaction.refl (m : Machine) (input : Input) : Reaction m input m [] :=
  .quiet rfl (by simp)

theorem fail_of_live {m : Machine} (h : m.state.isTerminal = false) (reason : FailureReason) :
    m.fail reason = ({ m with state := .failed }, [.emit (.failed reason), .closeTransport]) := by
  have hmove : m.state.after? .fail = some .failed := by
    cases hs : m.state <;> simp_all [Lifecycle.after?, Lifecycle.isTerminal]
  rw [fail, moving_of_some hmove]

theorem reaction_fail (m : Machine) (input : Input) (reason : FailureReason) :
    Reaction m input (m.fail reason).1 (m.fail reason).2 := by
  cases h : m.state.isTerminal with
  | true =>
    rw [fail, moving_of_none (Lifecycle.after?_eq_none_of_isTerminal h _)]
    exact .refl m input
  | false =>
    rw [fail_of_live h]
    exact .failed reason h

theorem transportLost_of_hasTransport {m : Machine} (h : m.state.hasTransport = true) :
    m.transportLost =
      ({ m with state := .reconnecting, indexed := false, outstandingPings := 0 },
        [.reconnect]) := by
  have hmove : m.state.after? .transportLost = some .reconnecting := by
    cases hs : m.state <;> simp_all [Lifecycle.after?, Lifecycle.hasTransport]
  rw [transportLost, if_pos h, moving_of_some hmove]

theorem transportLost_of_not_hasTransport {m : Machine} (h : m.state.hasTransport = false) :
    m.transportLost = (m, []) := by
  simp [transportLost, h]

theorem reaction_transportLost (m : Machine) (input : Input) :
    Reaction m input m.transportLost.1 m.transportLost.2 := by
  cases h : m.state.hasTransport with
  | true =>
    rw [transportLost_of_hasTransport h]
    exact .lost h
  | false =>
    rw [transportLost_of_not_hasTransport h]
    exact .refl m input

theorem reaction_start (m : Machine) : Reaction m .start m.start.1 m.start.2 := by
  by_cases h : m.state = .disconnected
  · rw [start, moving_of_some (s := .connecting) (by simp [h, Lifecycle.after?])]
    exact .begun h
  · rw [start, moving_of_none (by cases hs : m.state <;> simp_all [Lifecycle.after?])]
    exact .refl m _

theorem reaction_submitJoin (m : Machine) :
    Reaction m .submitJoin m.submitJoin.1 m.submitJoin.2 := by
  by_cases h : m.state = .connected
  · rw [submitJoin, moving_of_some (s := .authenticating) (by simp [h, Lifecycle.after?])]
    exact .submitted h
  · rw [submitJoin, moving_of_none (by cases hs : m.state <;> simp_all [Lifecycle.after?])]
    exact .refl m _

/-- On the first connection the join is submitted as a move of its own, later it is part of the
move: either way the machine ends up authenticating. -/
theorem transportUp_of_dialing {m : Machine}
    (h : m.state = .connecting ∨ m.state = .reconnecting) :
    m.transportUp =
      ({ m with state := .authenticating, joinsSent := m.joinsSent + 1 },
        [.send (joinFrame m.config)]) := by
  rcases h with h | h <;>
    simp [transportUp, moving, move?, submitJoin, join, h, Lifecycle.after?]

theorem reaction_transportUp (m : Machine) :
    Reaction m .transportUp m.transportUp.1 m.transportUp.2 := by
  by_cases h : m.state = .connecting ∨ m.state = .reconnecting
  · rw [transportUp_of_dialing h]
    exact .joining h
  · obtain ⟨hc, hr⟩ := not_or.mp h
    have hmove : m.state.after? .transportUp = none := by
      cases hs : m.state <;> simp_all [Lifecycle.after?]
    rw [transportUp, if_neg hr, moving_of_none hmove]
    exact .refl m _

theorem requestLeave_of_joined {m : Machine} (h : m.state = .joined) :
    m.requestLeave = ({ m with state := .closed }, [.send leaveFrame, .emit .closed]) := by
  simp [requestLeave, moving, move?, h, Lifecycle.isJoined, Lifecycle.after?, Lifecycle.isTerminal,
    leaveFrame]

theorem requestLeave_of_live {m : Machine} (h : m.state.isTerminal = false)
    (notJoined : m.state ≠ .joined) :
    m.requestLeave = ({ m with state := .closed }, [.emit .closed]) := by
  have hmove : m.state.after? .leave = some .closed := by
    cases hs : m.state <;> simp_all [Lifecycle.after?, Lifecycle.isTerminal]
  have hjoined : m.state.isJoined = false := by
    cases hs : m.state <;> simp_all [Lifecycle.isJoined]
  simp [requestLeave, moving_of_some hmove, hjoined]

theorem requestLeave_of_isTerminal {m : Machine} (h : m.state.isTerminal = true) :
    m.requestLeave = (m, []) := by
  rw [requestLeave, moving_of_none (Lifecycle.after?_eq_none_of_isTerminal h _)]

theorem reaction_requestLeave (m : Machine) :
    Reaction m .leave m.requestLeave.1 m.requestLeave.2 := by
  cases h : m.state.isTerminal with
  | true =>
    rw [requestLeave_of_isTerminal h]
    exact .refl m _
  | false =>
    by_cases hj : m.state = .joined
    · rw [requestLeave_of_joined hj]
      exact .left hj
    · rw [requestLeave_of_live h hj]
      exact .withdrew h hj

/-! ### Frames of the service -/

/-- A handler that keeps the state and only reports is quiet, whatever else it takes note of. -/
theorem reaction_withBody {α : Type} {m : Machine} {input : Input} {body : Option α}
    {handle : α → Machine × List Action}
    (h : ∀ a, Reaction m input (handle a).1 (handle a).2) :
    Reaction m input (m.withBody body handle).1 (m.withBody body handle).2 := by
  cases body with
  | none => exact .refl m input
  | some a => exact h a

theorem isReport_sourceNews {added removed : List VideoSource} :
    ∀ a ∈ sourceNews added removed, a.isReport = true := by
  intro a ha
  unfold sourceNews at ha
  rcases List.mem_append.mp ha with ha | ha <;> split at ha <;>
    simp_all [Action.isReport, Event.isPlain]

theorem reaction_onIndex (m : Machine) (input : Input) (index : IndexFrame) (now : Instant) :
    Reaction m input (m.onIndex index now).1 (m.onIndex index now).2 := by
  unfold onIndex
  split
  · exact .refl m input
  · dsimp only
    split
    · exact .quiet rfl isReport_sourceNews
    · split
      · exact .quiet rfl (by simp)
      · exact .quiet rfl (by simp [Action.isReport, Event.isPlain])

theorem reaction_onSubscribeAck (m : Machine) (input : Input) (ack : SubscribeAckFrame) :
    Reaction m input (m.onSubscribeAck ack).1 (m.onSubscribeAck ack).2 := by
  unfold onSubscribeAck
  split
  · exact .refl m input
  · split
    · exact .refl m input
    · exact .quiet rfl (by simp [Action.isReport, Event.isPlain])

/-- Whatever the audio streams are said to do, attendees come, go, mute and sound. -/
theorem isPresence_onStreamInfo (s : Presence) (info : AudioStreamIdInfo) :
    ∀ e ∈ (s.onStreamInfo info).2, e.isPresence = true := by
  have announced : ∀ stream id external,
      ∀ e ∈ (s.announce stream id external).2, e.isPresence = true := by
    intro stream id external e he
    simp only [Presence.announce] at he
    split at he <;> simp_all [Event.isPresence]
  have reported : ∀ (t : Presence) stream muted,
      ∀ e ∈ (t.reportMute stream muted).2, e.isPresence = true := by
    intro t stream muted e he
    simp only [Presence.reportMute] at he
    repeat' split at he
    all_goals simp_all [Event.isPresence]
  have removed : ∀ stream dropped, ∀ e ∈ (s.remove stream dropped).2, e.isPresence = true := by
    intro stream dropped e he
    simp only [Presence.remove] at he
    repeat' split at he
    all_goals simp_all [Event.isPresence]
  intro e he
  unfold Presence.onStreamInfo at he
  split at he
  · simp at he
  · split at he
    · exact removed _ _ e he
    · exact announced _ _ _ e he
    · exact reported s _ _ e he
    · rcases List.mem_append.mp he with he | he
      · exact announced _ _ _ e he
      · exact reported _ _ _ e he

theorem isPresence_onStreams (infos : List AudioStreamIdInfo) :
    ∀ (s : Presence), ∀ e ∈ (s.onStreams infos).2, e.isPresence = true := by
  induction infos with
  | nil => intro s e he; simp [Presence.onStreams] at he
  | cons info rest ih =>
    intro s e he
    rcases List.mem_append.mp he with he | he
    · exact isPresence_onStreamInfo s info e he
    · exact ih _ e he

theorem isPresence_onAudioMetadata (s : Presence) (f : AudioMetadataFrame) :
    ∀ e ∈ (s.onAudioMetadata f).2, e.isPresence = true := by
  intro e he
  rcases List.mem_append.mp he with he | he <;> split at he <;> simp_all [Event.isPresence]

theorem reaction_onPresence (m : Machine) (input : Input)
    {take : Presence → Presence × List Event}
    (h : ∀ e ∈ (take m.presence).2, e.isPresence = true) :
    Reaction m input (m.onPresence take).1 (m.onPresence take).2 := by
  unfold onPresence
  split
  · refine .quiet rfl fun a ha => ?_
    obtain ⟨e, he, rfl⟩ := List.mem_map.mp ha
    exact Event.isPlain_of_isPresence (h e he)
  · exact .refl m input

theorem reaction_onDataMessage (m : Machine) (input : Input) (f : DataMessageFrame) :
    Reaction m input (m.onDataMessage f).1 (m.onDataMessage f).2 := by
  refine .quiet rfl fun a ha => ?_
  rcases List.mem_append.mp ha with ha | ha <;> split at ha <;>
    simp_all [Action.isReport, Event.isPlain]

theorem reaction_onAudioStatus (m : Machine) {bytes : Octets} {now : Instant} (status : UInt32) :
    Reaction m (.message bytes now) (m.onAudioStatus status).1 (m.onAudioStatus status).2 := by
  have report : Reaction m (.message bytes now) m [.emit (.audioStatus status)] :=
    .quiet rfl (by simp [Action.isReport, Event.isPlain])
  unfold onAudioStatus
  split
  · exact report
  · dsimp only
    split
    · exact reaction_fail m _ _
    · exact reaction_fail m _ _
    · rename_i hj
      split
      · rw [remoteLeave, moving_of_some (s := .closed)
          (by simp [hj, Lifecycle.after?, Lifecycle.isTerminal])]
        exact .ended hj
      · exact report
    · exact report

theorem reaction_onLeaveAck {m : Machine} {bytes : Octets} {now : Instant}
    (h : m.state ≠ .failed) :
    Reaction m (.message bytes now) m.onLeaveAck.1 m.onLeaveAck.2 := by
  by_cases hc : m.state = .closed
  · have hmove : m.move? .remoteLeave = none := by
      simp [move?, hc, Lifecycle.after?, Lifecycle.isTerminal]
    simp only [onLeaveAck, hmove]
    exact .acknowledged hc
  · have ht : m.state.isTerminal = false := by
      cases hs : m.state <;> simp_all [Lifecycle.isTerminal]
    have hmove : m.move? .remoteLeave = some { m with state := .closed } := by
      cases hs : m.state <;> simp_all [move?, Lifecycle.after?, Lifecycle.isTerminal]
    simp only [onLeaveAck, hmove]
    exact .released ht

theorem reaction_onPingPong {m : Machine} {bytes : Octets} {now : Instant} (f : PingPongFrame)
    (h : m.state.isTerminal = false) :
    Reaction m (.message bytes now) (m.onPingPong f).1 (m.onPingPong f).2 := by
  unfold onPingPong
  split
  · exact .answered f.pingId h
  · exact .quiet rfl (by simp)
  · exact .refl m _

theorem onJoinAck_of_authenticating {m : Machine} (h : m.state = .authenticating)
    (ack : Option JoinAckFrame) (now : Instant) :
    ∃ turn, m.onJoinAck ack now =
      ({ m with turn, state := .joined },
        [.emit (.joined m.codec turn), .send m.subscribeFrame]) := by
  refine ⟨(ack.bind (·.turnCredentials)).bind (turnAccess? · now), ?_⟩
  rw [onJoinAck, if_pos h, moving_of_some (s := .joined) (by simp [h, Lifecycle.after?])]
  rfl

theorem reaction_onJoinAck {m : Machine} {input : Input} (answer : input.IsJoinAck)
    (ack : Option JoinAckFrame) (now : Instant) :
    Reaction m input (m.onJoinAck ack now).1 (m.onJoinAck ack now).2 := by
  by_cases h : m.state = .authenticating
  · obtain ⟨turn, hstep⟩ := onJoinAck_of_authenticating h ack now
    rw [hstep]
    exact .admitted h answer rfl
  · rw [onJoinAck, if_neg h]
    exact .refl m input

/-- A frame that a closed or failed client ignores is not taken in, so a handler may count on a live
session, that of a leave's acknowledgment apart. -/
theorem reaction_onSignal {m : Machine} {bytes : Octets} {frame : SignalFrame} {now : Instant}
    (h : Envelope.decode bytes = .ok (.signal frame)) :
    Reaction m (.message bytes now) (m.onSignal frame now).1 (m.onSignal frame now).2 := by
  unfold onSignal
  split
  · exact .refl m _
  · rename_i kind hkind
    split
    · exact .refl m _
    · rename_i hlive
      -- a machine that is over ignores all but the acknowledgment of its leave
      have live : kind ≠ .leaveAck → m.state.isTerminal = false := by
        intro hk
        cases hs : m.state <;> simp_all [ignores, Lifecycle.isTerminal]
      cases kind with
      | joinAck =>
        have answer : Input.IsJoinAck (.message bytes now) := ⟨frame, h, hkind⟩
        exact reaction_onJoinAck answer _ _
      | leaveAck => exact reaction_onLeaveAck (by intro hf; simp [ignores, hf] at hlive)
      | index => exact reaction_withBody fun b => reaction_onIndex m _ b now
      | subscribeAck => exact reaction_withBody fun b => reaction_onSubscribeAck m _ b
      | audioMetadata =>
        exact reaction_withBody fun b => reaction_onPresence m _ (isPresence_onAudioMetadata _ b)
      | audioStreamIdInfo =>
        exact reaction_withBody fun b => reaction_onPresence m _ (isPresence_onStreams _ _)
      | audioStatus => exact reaction_withBody fun b => reaction_onAudioStatus m b
      | dataMessage => exact reaction_withBody fun b => reaction_onDataMessage m _ b
      | pingPong => exact reaction_withBody fun b => reaction_onPingPong b (live (by simp))
      | join | subscribe | pause | resume | leave | bitrates | audioControl | clientMetric =>
        exact .refl m _

theorem reaction_onMessage (m : Machine) (bytes : Octets) (now : Instant) :
    Reaction m (.message bytes now) (m.onMessage bytes now).1 (m.onMessage bytes now).2 := by
  unfold onMessage
  split
  · rename_i frame h
    exact reaction_onSignal h
  · split
    · exact .quiet rfl (by simp [Action.isReport])
    · exact .refl m _
  · split
    · exact reaction_fail m _ _
    · exact .refl m _

/-! ### The other inputs -/

theorem transportClosed_cases (m : Machine) (code : Option UInt16) :
    m.transportClosed code = m.transportLost ∨
      m.state.isTerminal = false ∧ ∃ reason, m.transportClosed code = m.fail reason := by
  unfold transportClosed
  split
  · split
    · exact .inl rfl
    · rename_i h
      exact .inr ⟨by simpa using h, _, rfl⟩
  · exact .inl rfl

theorem reaction_transportClosed (m : Machine) (code : Option UInt16) (input : Input) :
    Reaction m input (m.transportClosed code).1 (m.transportClosed code).2 := by
  rcases transportClosed_cases m code with h | ⟨-, reason, h⟩
  · rw [h]
    exact reaction_transportLost m input
  · rw [h]
    exact reaction_fail m input reason

theorem joined_of_isJoined {s : Lifecycle} (h : s.isJoined = true) : s = .joined := by
  cases s <;> simp_all [Lifecycle.isJoined]

theorem reaction_ping (m : Machine) (input : Input) :
    Reaction m input m.ping.1 m.ping.2 := by
  unfold ping
  split
  · exact .refl m input
  · rename_i h
    have hj : m.state = .joined := joined_of_isJoined (by simpa using h)
    split
    · exact reaction_transportLost m input
    · exact .spoke _ hj hj rfl

theorem reaction_setMute (m : Machine) (muted : Bool) (input : Input) :
    Reaction m input (m.setMute muted).1 (m.setMute muted).2 := by
  unfold setMute
  split
  · exact .refl m input
  · split
    · rename_i h
      have hj : m.state = .joined := joined_of_isJoined h
      exact .spoke _ hj hj rfl
    · exact .quiet rfl (by simp)

theorem reaction_sendDataMessage (m : Machine) (message : OutgoingMessage) (input : Input) :
    Reaction m input (m.sendDataMessage message).1 (m.sendDataMessage message).2 := by
  unfold sendDataMessage
  split
  · exact .refl m input
  · rename_i h
    have hj : m.state = .joined := joined_of_isJoined (by simpa using h)
    split
    · exact .spoke _ hj hj rfl
    · exact .quiet rfl (by simp [Action.isReport, Event.isPlain])

theorem reaction_resubscribe (m : Machine) (input : Input) :
    Reaction m input m.resubscribe.1 m.resubscribe.2 := by
  unfold resubscribe
  split
  · rename_i h
    have hj : m.state = .joined := joined_of_isJoined h
    exact .spoke _ hj hj rfl
  · exact .refl m input

/-- **The list is complete**: whatever machine and input, the step is one of those listed. -/
theorem reaction_step (m : Machine) (input : Input) :
    Reaction m input (m.step input).1 (m.step input).2 := by
  cases input with
  | start => exact reaction_start m
  | transportUp => exact reaction_transportUp m
  | submitJoin => exact reaction_submitJoin m
  | message bytes now => exact reaction_onMessage m bytes now
  | ping => exact reaction_ping m _
  | leave => exact reaction_requestLeave m
  | transportLost => exact reaction_transportLost m _
  | transportClosed code => exact reaction_transportClosed m code _
  | reconnectExhausted attempts => exact reaction_fail m _ _
  | setMute muted => exact reaction_setMute m muted _
  | sendDataMessage message => exact reaction_sendDataMessage m message _
  | resubscribe => exact reaction_resubscribe m _

/-- An answer to a join has its effect on every machine that waits for it: the machine is joined and
subscribes. -/
theorem step_of_isJoinAck {m : Machine} (input : Input) (h : m.state = .authenticating)
    (answer : input.IsJoinAck) :
    (m.step input).1.state = .joined ∧
      (m.step input).2 = [.emit (.joined (m.step input).1.codec (m.step input).1.turn),
        .send (m.step input).1.subscribeFrame] := by
  cases input with
  | message bytes now =>
    obtain ⟨frame, hdecode, hkind⟩ := answer
    obtain ⟨turn, hstep⟩ := onJoinAck_of_authenticating h frame.joinAck now
    have hlive : ignores m.state .joinAck = false := by simp [h, ignores]
    simp only [step, onMessage, hdecode, onSignal, hkind, hlive, onFrame, hstep]
    exact ⟨rfl, rfl⟩
  | _ => exact absurd answer (by simp [Input.IsJoinAck])

end Machine

end Parley
