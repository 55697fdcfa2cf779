import Parley.Proofs.Signaling.Ending
import Parley.Proofs.Signaling.Joins

/-!
# `Parley/Proofs/Signaling/Bearing.lean` — what one input does to what a machine keeps

Beside its state a machine keeps what it knows of its connection: the access granted with it,
whether an index was taken in on it, the pings that wait for an answer and the number of the last
one. And it keeps the sources that the last index listed. Few inputs touch any of this, and
`Bearing` lists those that do, each with the exact machine and the exact actions that come of it;
whatever is not on the list leaves all of it alone and says nothing of it (`bearing_step`).

`Reaction` lists what an input can do to the state and the connection; here the state matters only
as far as the client is joined or not.
-/

set_option autoImplicit false

namespace Parley

open Parley.Wire

/-- News of the video sources. -/
def Action.isSourceNews : Action → Bool
  | .emit (.started _ _) | .emit (.videoSourcesAvailable _) | .emit (.videoSourcesUnavailable _) =>
    true
  | _ => false

/-- An action that marks a turn in the course of a connection: the client is let in, is told of video
sources, asks for a sign of life, or wants a new connection. -/
def Action.isMark : Action → Bool
  | .emit (.joined _ _) => true
  | .send frame => Saying.ofFrame frame == .ping
  | .reconnect => true
  | a => a.isSourceNews

theorem Action.isSourceNews_of_unmarked {a : Action} (h : a.isMark = false) :
    a.isSourceNews = false := by
  cases a with
  | emit event =>
    cases event with
    | started | videoSourcesAvailable | videoSourcesUnavailable =>
      exact absurd h (by simp [Action.isMark, Action.isSourceNews])
    | _ => rfl
  | _ => rfl

namespace Machine

/-! ## What an input is -/

/-- The answer to a join that an input brings, with the time at which it comes in. -/
def Input.joinAck? : Input → Option (Option JoinAckFrame × Instant)
  | .message bytes now =>
    match Envelope.decode bytes with
    | .ok (.signal frame) =>
      match FrameKind.ofNumber? frame.kind with
      | some .joinAck => some (frame.joinAck, now)
      | _ => none
    | _ => none
  | _ => none

/-- Whether an input brings a sign of life. -/
def Input.isPong : Input → Bool
  | .message bytes _ =>
    match Envelope.decode bytes with
    | .ok (.signal frame) => Saying.ofFrame frame == .pong
    | _ => false
  | _ => false

/-- The index that an input brings, with the time at which it comes in. -/
def Input.index? : Input → Option (IndexFrame × Instant)
  | .message bytes now =>
    match Envelope.decode bytes with
    | .ok (.signal frame) =>
      match FrameKind.ofNumber? frame.kind with
      | some .index => frame.index.map (·, now)
      | _ => none
    | _ => none
  | _ => none

/-- Whether an index is taken in: the client is joined, and the meeting has room. -/
def Admits (m : Machine) (index : IndexFrame) : Prop :=
  m.state.isJoined = true ∧ index.atCapacity ≠ some true

instance (m : Machine) (index : IndexFrame) : Decidable (m.Admits index) :=
  inferInstanceAs (Decidable (_ ∧ _))

/-! ## An index that is taken in -/

section Admitted

variable {m : Machine} {input : Input} {index : IndexFrame} {now : Instant}

theorem step_of_admits (hindex : input.index? = some (index, now)) (h : m.Admits index) :
    m.step input = m.onIndex index now := by
  cases input with
  | message bytes time =>
    have hlive : ignores m.state .index = false := by
      cases hs : m.state with
      | closed | failed => exact absurd h.1 (by simp [hs, Lifecycle.isJoined])
      | _ => rfl
    simp only [Input.index?] at hindex
    split at hindex
    · rename_i frame hdecode
      split at hindex
      · rename_i hkind
        obtain ⟨body, hbody, hpair⟩ := Option.map_eq_some_iff.mp hindex
        obtain ⟨rfl, rfl⟩ := Prod.mk.inj hpair
        simp [step, onMessage, hdecode, onSignal, hkind, hlive, onFrame, withBody, hbody]
      · exact absurd hindex (by simp)
    · exact absurd hindex (by simp)
  | _ => exact absurd hindex (by simp [Input.index?])

/-- The news of an index that is taken in. -/
def indexNews (m : Machine) (index : IndexFrame) (now : Instant) : List Action :=
  let added := (m.sources.update index.sources).2
  if m.indexed then sourceNews added (m.sources.gone index.sources (m.visits 0))
  else if m.turn.any (·.isExpired now) then []
  else [.emit (.started m.turn added)]

theorem onIndex_of_admits (h : m.Admits index) :
    m.onIndex index now =
      ({ m with
          sources := (m.sources.update index.sources).1
          indexed := true
          visits := m.visits.rest },
        m.indexNews index now) := by
  have hroom : (index.atCapacity == some true) = false := by simpa using h.2
  simp only [onIndex, h.1, hroom, indexNews, Bool.not_true, Bool.or_self, Bool.false_eq_true,
    if_false]
  split
  · rfl
  · split <;> rfl

theorem onIndex_of_not_admits (h : ¬ m.Admits index) : m.onIndex index now = (m, []) := by
  have hskip : (!m.state.isJoined || index.atCapacity == some true) = true := by
    by_contra hnot
    simp only [Bool.or_eq_true, not_or] at hnot
    exact h ⟨by simpa using hnot.1, by simpa using hnot.2⟩
  rw [onIndex, if_pos hskip]

end Admitted

theorem isSourceNews_indexNews (m : Machine) (index : IndexFrame) (now : Instant) :
    ∀ a ∈ m.indexNews index now, a.isSourceNews = true := by
  have hnews : ∀ added removed : List VideoSource,
      ∀ a ∈ sourceNews added removed, a.isSourceNews = true := by
    intro added removed a ha
    rcases List.mem_append.mp ha with ha | ha <;> split at ha <;> simp_all [Action.isSourceNews]
  unfold indexNews
  dsimp only
  split
  · exact hnews _ _
  · split
    · simp
    · simp [Action.isSourceNews]

/-! ## What an input bears on -/

/-- What a machine keeps of its connection, and of the sources. -/
structure Standing where
  sources : VideoSources
  turn : Option TurnAccess
  indexed : Bool
  outstandingPings : Nat
  lastPingId : UInt32

def standing (m : Machine) : Standing :=
  { sources := m.sources, turn := m.turn, indexed := m.indexed, outstandingPings := m.outstandingPings
    lastPingId := m.lastPingId }

/-- The relay access that comes with an answer to a join. -/
def grantedBy (ack : Option JoinAckFrame) (now : Instant) : Option TurnAccess :=
  (ack.bind (·.turnCredentials)).bind (turnAccess? · now)

/-- All that an input can do to what a machine keeps. -/
inductive Bearing (m : Machine) (input : Input) : Machine → List Action → Prop where
  /-- Nothing of it changes, and nothing is told that would be a mark. Unless the session ends, the
  client is joined as before or not joined as before. -/
  | aside {next : Machine} {actions : List Action} (standing : next.standing = m.standing)
      (joined : next.state.isTerminal = false → (next.state = .joined ↔ m.state = .joined))
      (unmarked : ∀ a ∈ actions, a.isMark = false) : Bearing m input next actions
  | letIn (ack : Option JoinAckFrame) (now : Instant) (state : m.state = .authenticating)
      (answer : input.joinAck? = some (ack, now)) :
      Bearing m input { m with turn := grantedBy ack now, state := .joined }
        [.emit (.joined m.codec (grantedBy ack now)), .send m.subscribeFrame]
  | indexed (index : IndexFrame) (now : Instant) (brings : input.index? = some (index, now))
      (admits : m.Admits index) :
      Bearing m input
        { m with
          sources := (m.sources.update index.sources).1
          indexed := true
          visits := m.visits.rest }
        (m.indexNews index now)
  /-- The service gives a sign of life. -/
  | ponged (pong : input.isPong = true) : Bearing m input { m with outstandingPings := 0 } []
  /-- The client asks for one. -/
  | pinged (state : m.state = .joined) (few : m.outstandingPings < maxMissedPings) :
      Bearing m input
        { m with outstandingPings := m.outstandingPings + 1, lastPingId := m.lastPingId + 1 }
        [.send (pingPongFrame .ping (m.lastPingId + 1))]
  | lost (state : m.state.hasTransport = true) :
      Bearing m input
        { m with state := .reconnecting, indexed := false, outstandingPings := 0 } [.reconnect]

variable {m : Machine} {input : Input}

theorem Bearing.report {actions : List Action} (h : ∀ a ∈ actions, a.isMark = false) :
    Bearing m input m actions :=
  .aside rfl (fun _ => Iff.rfl) h

theorem Bearing.refl : Bearing m input m [] := .report (by simp)

/-- The session ends. -/
theorem Bearing.over {next : Machine} {actions : List Action}
    (standing : next.standing = m.standing) (ended : next.state.isTerminal = true)
    (unmarked : ∀ a ∈ actions, a.isMark = false) : Bearing m input next actions :=
  .aside standing (fun live => absurd (ended.symm.trans live) (by decide)) unmarked

/-- The client was not joined, and is not joined yet. -/
theorem Bearing.underWay {next : Machine} {actions : List Action}
    (standing : next.standing = m.standing) (before : m.state.isJoined = false)
    (after : next.state.isJoined = false) (unmarked : ∀ a ∈ actions, a.isMark = false) :
    Bearing m input next actions := by
  have hnot (s : Lifecycle) (h : s.isJoined = false) : s ≠ .joined := by
    rintro rfl
    exact absurd h (by decide)
  exact .aside standing (fun _ => iff_of_false (hnot _ after) (hnot _ before)) unmarked

theorem bearing_fail (reason : FailureReason) :
    Bearing m input (m.fail reason).1 (m.fail reason).2 := by
  cases h : m.state.isTerminal with
  | true =>
    rw [fail, moving_of_isTerminal h]
    exact .refl
  | false =>
    rw [fail_of_live h]
    exact .over rfl rfl (by simp [Action.isMark, Action.isSourceNews])

theorem bearing_transportLost : Bearing m input m.transportLost.1 m.transportLost.2 := by
  cases h : m.state.hasTransport with
  | true =>
    rw [transportLost_of_hasTransport h]
    exact .lost h
  | false =>
    rw [transportLost_of_not_hasTransport h]
    exact .refl

/-! ### Messages of the service -/

theorem bearing_withBody {α : Type} {body : Option α} {handle : α → Machine × List Action}
    (h : ∀ a, body = some a → Bearing m input (handle a).1 (handle a).2) :
    Bearing m input (m.withBody body handle).1 (m.withBody body handle).2 := by
  cases body with
  | none => exact .refl
  | some a => exact h a rfl

theorem bearing_onJoinAck {ack : Option JoinAckFrame} {now : Instant}
    (answer : input.joinAck? = some (ack, now)) :
    Bearing m input (m.onJoinAck ack now).1 (m.onJoinAck ack now).2 := by
  unfold onJoinAck
  split
  · rename_i h
    rw [moving_of_some (s := .joined) (by simp [h, Lifecycle.after?])]
    exact .letIn ack now h answer
  · exact .refl

theorem bearing_onLeaveAck : Bearing m input m.onLeaveAck.1 m.onLeaveAck.2 := by
  cases h : m.state.isTerminal with
  | true =>
    rw [onLeaveAck_of_isTerminal h]
    exact .report (by simp [Action.isMark, Action.isSourceNews])
  | false =>
    have hmove : m.move? .remoteLeave = some { m with state := .closed } := by
      cases hs : m.state <;> simp_all [move?, Lifecycle.after?, Lifecycle.isTerminal]
    rw [onLeaveAck, hmove]
    exact .over rfl rfl (by simp [Action.isMark, Action.isSourceNews])

theorem bearing_onIndex {index : IndexFrame} {now : Instant}
    (brings : input.index? = some (index, now)) :
    Bearing m input (m.onIndex index now).1 (m.onIndex index now).2 := by
  by_cases h : m.Admits index
  · rw [onIndex_of_admits h]
    exact .indexed index now brings h
  · rw [onIndex_of_not_admits h]
    exact .refl

theorem bearing_onSubscribeAck (ack : SubscribeAckFrame) :
    Bearing m input (m.onSubscribeAck ack).1 (m.onSubscribeAck ack).2 := by
  unfold onSubscribeAck
  split
  · exact .refl
  · split
    · exact .refl
    · exact .aside rfl (fun _ => Iff.rfl) (by simp [Action.isMark, Action.isSourceNews])

theorem bearing_onAudioStatus (status : UInt32) :
    Bearing m input (m.onAudioStatus status).1 (m.onAudioStatus status).2 := by
  have report : Bearing m input m [.emit (.audioStatus status)] :=
    .report (by simp [Action.isMark, Action.isSourceNews])
  unfold onAudioStatus
  split
  · exact report
  · dsimp only
    split
    · exact bearing_fail _
    · exact bearing_fail _
    · rename_i hjoined
      split
      · rw [remoteLeave, moving_of_some (s := .closed)
          (by simp [hjoined, Lifecycle.after?, Lifecycle.isTerminal])]
        exact .over rfl rfl (by simp [Action.isMark, Action.isSourceNews])
      · exact report
    · exact report

theorem bearing_onDataMessage (f : DataMessageFrame) :
    Bearing m input (m.onDataMessage f).1 (m.onDataMessage f).2 := by
  refine .report fun a ha => ?_
  rcases List.mem_append.mp ha with ha | ha <;> split at ha <;>
    simp_all [Action.isMark, Action.isSourceNews]

theorem bearing_onPingPong {bytes : Octets} {now : Instant} {frame : SignalFrame}
    {f : PingPongFrame} (hdecode : Envelope.decode bytes = .ok (.signal frame))
    (hkind : FrameKind.ofNumber? frame.kind = some .pingPong) (hbody : frame.pingPong = some f) :
    Bearing m (.message bytes now) (m.onPingPong f).1 (m.onPingPong f).2 := by
  unfold onPingPong
  split
  · exact .report (List.forall_mem_singleton.mpr rfl)
  · rename_i hpong
    exact .ponged (by simp [Input.isPong, hdecode, Saying.ofFrame, hkind, hbody, hpong])
  · exact .refl

theorem bearing_onPresence {take : Presence → Presence × List Event}
    (h : ∀ e ∈ (take m.presence).2, e.isPresence = true) :
    Bearing m input (m.onPresence take).1 (m.onPresence take).2 := by
  unfold onPresence
  split
  · refine .aside rfl (fun _ => Iff.rfl) fun a ha => ?_
    obtain ⟨e, he, rfl⟩ := List.mem_map.mp ha
    have hpresence := h e he
    cases e with
    | joined | started | videoSourcesAvailable | videoSourcesUnavailable =>
      exact absurd hpresence (by simp [Event.isPresence])
    | _ => rfl
  · exact .refl

theorem bearing_onSignal {bytes : Octets} {now : Instant} {frame : SignalFrame}
    (hdecode : Envelope.decode bytes = .ok (.signal frame)) :
    Bearing m (.message bytes now) (m.onSignal frame now).1 (m.onSignal frame now).2 := by
  unfold onSignal
  split
  · exact .refl
  · rename_i kind hkind
    split
    · exact .refl
    · cases kind with
      | joinAck => exact bearing_onJoinAck (by simp [Input.joinAck?, hdecode, hkind])
      | leaveAck => exact bearing_onLeaveAck
      | index =>
        refine bearing_withBody fun index hbody => bearing_onIndex ?_
        simp [Input.index?, hdecode, hkind, hbody]
      | subscribeAck => exact bearing_withBody fun b _ => bearing_onSubscribeAck b
      | audioMetadata =>
        exact bearing_withBody fun b _ => bearing_onPresence (isPresence_onAudioMetadata _ b)
      | audioStreamIdInfo =>
        exact bearing_withBody fun b _ => bearing_onPresence (isPresence_onStreams _ _)
      | audioStatus => exact bearing_withBody fun b _ => bearing_onAudioStatus b
      | dataMessage => exact bearing_withBody fun b _ => bearing_onDataMessage b
      | pingPong => exact bearing_withBody fun b hbody => bearing_onPingPong hdecode hkind hbody
      | join | subscribe | pause | resume | leave | bitrates | audioControl | clientMetric =>
        exact .refl

theorem bearing_onMessage (bytes : Octets) (now : Instant) :
    Bearing m (.message bytes now) (m.onMessage bytes now).1 (m.onMessage bytes now).2 := by
  unfold onMessage
  split
  · rename_i frame hdecode
    exact bearing_onSignal hdecode
  · split
    · exact .report (by simp [Action.isMark, Action.isSourceNews])
    · exact .refl
  · split
    · exact bearing_fail _
    · exact .refl

/-! ### The other inputs -/

theorem bearing_start : Bearing m input m.start.1 m.start.2 := by
  by_cases h : m.state = .disconnected
  · rw [start, moving_of_some (s := .connecting) (by simp [h, Lifecycle.after?])]
    exact .underWay rfl (by rw [h]; rfl) rfl (by simp)
  · rw [start, moving_of_none (by cases hs : m.state <;> simp_all [Lifecycle.after?])]
    exact .refl

theorem bearing_submitJoin : Bearing m input m.submitJoin.1 m.submitJoin.2 := by
  by_cases h : m.state = .connected
  · rw [submitJoin, moving_of_some (s := .authenticating) (by simp [h, Lifecycle.after?])]
    exact .underWay rfl (by rw [h]; rfl) rfl
      (List.forall_mem_singleton.mpr rfl)
  · rw [submitJoin_of_not_connected h]
    exact .refl

theorem bearing_transportUp : Bearing m .transportUp m.transportUp.1 m.transportUp.2 := by
  by_cases h : m.ComesUp .transportUp
  · have hdialing := dialing_of_after?_isSome h.2
    rw [transportUp_of_dialing hdialing]
    have hbefore : m.state.isJoined = false := by rcases hdialing with hs | hs <;> rw [hs] <;> rfl
    exact .underWay rfl hbefore rfl (List.forall_mem_singleton.mpr rfl)
  · rw [transportUp_of_not_comesUp h]
    exact .refl

theorem ping_of_few (state : m.state = .joined) (few : m.outstandingPings < maxMissedPings) :
    m.ping =
      ({ m with outstandingPings := m.outstandingPings + 1, lastPingId := m.lastPingId + 1 },
        [.send (pingPongFrame .ping (m.lastPingId + 1))]) := by
  simp [ping, state, Lifecycle.isJoined, Nat.not_le.mpr few]

theorem ping_of_many (state : m.state = .joined) (many : maxMissedPings ≤ m.outstandingPings) :
    m.ping =
      ({ m with state := .reconnecting, indexed := false, outstandingPings := 0 },
        [.reconnect]) := by
  have hlost := transportLost_of_hasTransport (m := m) (by rw [state]; rfl)
  simp [ping, state, Lifecycle.isJoined, many, hlost]

theorem ping_of_not_joined (state : m.state ≠ .joined) : m.ping = (m, []) := by
  have hnot : m.state.isJoined = false := by
    cases hs : m.state with
    | joined => exact absurd hs state
    | _ => rfl
  simp [ping, hnot]

theorem bearing_ping : Bearing m input m.ping.1 m.ping.2 := by
  by_cases state : m.state = .joined
  · by_cases few : m.outstandingPings < maxMissedPings
    · rw [ping_of_few state few]
      exact .pinged state few
    · rw [ping_of_many state (Nat.not_lt.mp few)]
      exact .lost (by rw [state]; rfl)
  · rw [ping_of_not_joined state]
    exact .refl

theorem bearing_requestLeave : Bearing m input m.requestLeave.1 m.requestLeave.2 := by
  cases h : m.state.isTerminal with
  | true =>
    rw [requestLeave_of_isTerminal h]
    exact .refl
  | false =>
    by_cases hjoined : m.state = .joined
    · rw [requestLeave_of_joined hjoined]
      exact .over rfl rfl
        (List.forall_mem_cons.mpr ⟨rfl, List.forall_mem_singleton.mpr rfl⟩)
    · rw [requestLeave_of_live h hjoined]
      exact .over rfl rfl (by simp [Action.isMark, Action.isSourceNews])

theorem bearing_setMute (muted : Bool) :
    Bearing m input (m.setMute muted).1 (m.setMute muted).2 := by
  unfold setMute
  split
  · exact .refl
  · refine .aside rfl (fun _ => Iff.rfl) ?_
    split
    · exact List.forall_mem_singleton.mpr rfl
    · simp

theorem bearing_sendDataMessage (message : OutgoingMessage) :
    Bearing m input (m.sendDataMessage message).1 (m.sendDataMessage message).2 := by
  unfold sendDataMessage
  split
  · exact .refl
  · split
    · exact .report (List.forall_mem_singleton.mpr rfl)
    · exact .report (by simp [Action.isMark, Action.isSourceNews])

theorem bearing_resubscribe : Bearing m input m.resubscribe.1 m.resubscribe.2 := by
  unfold resubscribe
  split
  · exact .report (List.forall_mem_singleton.mpr rfl)
  · exact .refl

/-- **The list is complete**: whatever else an input does, it leaves alone what the machine keeps. -/
theorem bearing_step (m : Machine) (input : Input) :
    Bearing m input (m.step input).1 (m.step input).2 := by
  cases input with
  | start => exact bearing_start
  | transportUp => exact bearing_transportUp
  | submitJoin => exact bearing_submitJoin
  | message bytes now => exact bearing_onMessage bytes now
  | ping => exact bearing_ping
  | leave => exact bearing_requestLeave
  | transportLost => exact bearing_transportLost
  | transportClosed code =>
    rcases transportClosed_cases m code with hcode | ⟨-, reason, hcode⟩
    · rw [step, hcode]
      exact bearing_transportLost
    · rw [step, hcode]
      exact bearing_fail reason
  | reconnectExhausted attempts => exact bearing_fail _
  | setMute muted => exact bearing_setMute muted
  | sendDataMessage message => exact bearing_sendDataMessage message
  | resubscribe => exact bearing_resubscribe

end Machine

end Parley
