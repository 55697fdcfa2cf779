import Parley.Meeting.Descriptor
import Parley.Sdp.Offer
import Parley.Signaling.Lifecycle
import Parley.Signaling.Presence
import Parley.Signaling.VideoSources
import Parley.Wire.Enumeration

/-!
# `Parley/Signaling/Machine.lean` — one client of the signaling service

The machine is what a client knows between two inputs. Each input moves it to a next machine and
asks its owner for a list of actions, to be done in order. It does nothing itself: it neither sends
nor waits, and the time is told to it with each message. `Machine.step` gathers all inputs, and
`Machine.run` takes any number of them.

A machine that is closed or failed stays so. It then answers nothing, except that a closed one still
takes note of the acknowledgment of its leave.
-/

set_option autoImplicit false

namespace Parley

open Parley.Wire

/-- What the owner of a machine is asked to do. -/
inductive Action where
  /-- Stamp a signal frame, put it into its envelope and send it. -/
  | send (frame : SignalFrame)
  /-- Tell the rest of the program. -/
  | emit (event : Event)
  /-- Hand a packet over to the receiving side. -/
  | deliver (packet : Octets)
  | closeTransport
  /-- Drop the connection and dial again, with waits between the attempts. -/
  | reconnect
  deriving DecidableEq

/-- What a client asks for when it joins. -/
structure SignalingConfig where
  /-- Whether it wants to know who comes and goes. -/
  attendeeUpdates : Bool := true
  muteOnJoin : Bool := false
  /-- Whether it has audio to send. -/
  sendAudio : Bool := false
  deriving DecidableEq

/-- The choices that a descriptor suggests: audio is sent if there is a file to send. -/
def SignalingConfig.forDescriptor (d : Descriptor) : SignalingConfig :=
  { sendAudio := d.audioSource.isSome }

structure Machine where
  descriptor : Descriptor
  config : SignalingConfig
  state : Lifecycle := .disconnected
  muted : Bool
  sdpOffer : String
  /-- The codec agreed on so far. -/
  codec : Codec := .pcmu
  turn : Option TurnAccess := none
  /-- Whether an index was accepted on this connection. -/
  indexed : Bool := false
  sources : VideoSources := {}
  presence : Presence := {}
  /-- The stream and the group that the service gave to our audio. -/
  allocation : UInt32 × UInt32 := (0, 0)
  joinsSent : UInt32 := 0
  lastPingId : UInt32 := 0
  /-- The pings sent since the last sign of life. -/
  outstandingPings : Nat := 0
  visits : VideoSources.Visits

namespace Machine

/-- The unanswered pings after which the connection counts as lost. -/
def maxMissedPings : Nat := 3

/-- A machine before anything has happened. Chance has its offer name a session of some number, and
has it go through its sources in some way each time. -/
def new (descriptor : Descriptor) (config : SignalingConfig) (offerId : UInt64)
    (visits : VideoSources.Visits := fun _ => .asKept) : Machine :=
  { descriptor, config, visits
    muted := config.muteOnJoin
    sdpOffer :=
      Sdp.offer offerId (if config.sendAudio then .sendrecv else .recvonly) Codec.all }

/-! ## Moves of the lifecycle -/

def move? (m : Machine) (move : Move) : Option Machine :=
  (m.state.after? move).map fun state => { m with state }

/-- Does a move that has actions; one that is not allowed has none. -/
def moving (m : Machine) (move : Move) (actions : Machine → Machine × List Action) :
    Machine × List Action :=
  match m.move? move with
  | some m => actions m
  | none => (m, [])

def fail (m : Machine) (reason : FailureReason) : Machine × List Action :=
  m.moving .fail fun m => (m, [.emit (.failed reason), .closeTransport])

def remoteLeave (m : Machine) : Machine × List Action :=
  m.moving .remoteLeave fun m => (m, [.emit .closed, .closeTransport])

/-! ## Joining -/

def joinFlags (c : SignalingConfig) : UInt32 :=
  let base := JoinFlag.excludeSelfContentInIndex.number.toUInt32
  if c.attendeeUpdates then base ||| JoinFlag.hasStreamUpdate.number.toUInt32 else base

def joinFrame (c : SignalingConfig) : SignalFrame :=
  { kind := FrameKind.join.number
    join := some {
      protocolVersion := some 2
      maxNumOfVideos := some 25
      flags := some (joinFlags c)
      clientDetails := some {
        clientSource := some "amazon-chime-sdk-rust"
        chimeSdkVersion := some "0.1.0" } } }

def join (m : Machine) : Machine × List Action :=
  ({ m with joinsSent := m.joinsSent + 1 }, [.send (joinFrame m.config)])

def start (m : Machine) : Machine × List Action := m.moving .start fun m => (m, [])

/-- Joins over a connection that is up. -/
def submitJoin (m : Machine) : Machine × List Action := m.moving .joinSent join

/-- Takes note that a connection is up, and joins over it. -/
def transportUp (m : Machine) : Machine × List Action :=
  if m.state = .reconnecting then m.moving .transportUp join
  else m.moving .transportUp submitJoin

/-! ## Subscribing -/

def audioStream (m : Machine) : StreamDescriptor :=
  { streamId := some m.allocation.1
    groupId := some m.allocation.2
    mediaType := some StreamMediaType.audio.number }

/-- The frame that asks for media. The service expects stream 0 for the audio section. -/
def subscribeFrame (m : Machine) : SignalFrame :=
  let host := m.descriptor.audioHostUrl
  { kind := FrameKind.subscribe.number
    subscribe := some {
      duplex := some
        (if m.config.sendAudio then StreamServiceType.duplex else StreamServiceType.rx).number
      sendStreams := if m.config.sendAudio then [m.audioStream] else []
      receiveStreamIds := [0]
      sdpOffer := some m.sdpOffer
      xrpHost := if host.isEmpty then none else some host
      xrpMuted := if m.muted then some true else none } }

def resubscribe (m : Machine) : Machine × List Action :=
  if m.state.isJoined then (m, [.send m.subscribeFrame]) else (m, [])

/-! ## Messages of the service -/

/-- The relay access that the service grants; none if it is incomplete or names no relay. -/
def turnAccess? (t : TurnCredentials) (now : Instant) : Option TurnAccess := do
  let username ← t.username
  let password ← t.password
  let ttl ← t.ttl
  if t.uris.isEmpty then none
  return { username, password, ttl, uris := t.uris, expiresAt := now + ttl.toNat * 1000000000 }

def onJoinAck (m : Machine) (ack : Option JoinAckFrame) (now : Instant) :
    Machine × List Action :=
  if m.state = .authenticating then
    let turn := (ack.bind (·.turnCredentials)).bind (turnAccess? · now)
    { m with turn }.moving .joinAccepted fun m =>
      (m, [.emit (.joined m.codec m.turn), .send m.subscribeFrame])
  else (m, [])

def onLeaveAck (m : Machine) : Machine × List Action :=
  match m.move? .remoteLeave with
  | some m => (m, [.emit .leaveAcknowledged, .emit .closed, .closeTransport])
  | none => (m, [.emit .leaveAcknowledged, .closeTransport])

/-- The news that an index brings, if it is not the first of its connection. -/
def sourceNews (added removed : List VideoSource) : List Action :=
  (if added.isEmpty then [] else [.emit (.videoSourcesAvailable added)])
    ++ (if removed.isEmpty then [] else [.emit (.videoSourcesUnavailable removed)])

/-- The service lists the video sources. With the first list the session is up, unless the access to
the relay has run out meanwhile. -/
def onIndex (m : Machine) (index : IndexFrame) (now : Instant) : Machine × List Action :=
  if !m.state.isJoined || index.atCapacity == some true then (m, [])
  else
    let removed := m.sources.gone index.sources (m.visits 0)
    let (sources, added) := m.sources.update index.sources
    let next := { m with sources, indexed := true, visits := m.visits.rest }
    if m.indexed then (next, sourceNews added removed)
    else if m.turn.any (·.isExpired now) then (next, [])
    else (next, [.emit (.started m.turn added)])

def onSubscribeAck (m : Machine) (ack : SubscribeAckFrame) : Machine × List Action :=
  if !m.state.isJoined then (m, [])
  else match ack.sdpAnswer with
    | none => (m, [])
    | some answer =>
      let allocation := match m.config.sendAudio, ack.allocations with
        | true, first :: _ => (first.streamId.getD 0, first.groupId.getD 0)
        | _, _ => m.allocation
      let codec := (Sdp.negotiatedCodec answer).getD m.codec
      ({ m with allocation, codec }, [.emit (.mediaRenegotiated codec answer)])

/-- The service tells how the audio connection fares. From 400 on that is bad news, which ends a
session that is not joined yet, and one whose meeting has ended. -/
def onAudioStatus (m : Machine) (status : UInt32) : Machine × List Action :=
  if status < 400 then (m, [.emit (.audioStatus status)])
  else
    let refusal := Refusal.ofAudioStatus status
    match m.state with
    | .connected | .authenticating => m.fail (.auth refusal)
    | .joined =>
      if refusal = .meetingEnded then m.remoteLeave else (m, [.emit (.audioStatus status)])
    | _ => (m, [.emit (.audioStatus status)])

def onDataMessage (m : Machine) (f : DataMessageFrame) : Machine × List Action :=
  let (received, failed) := splitMessages f
  (m,
    (if received.isEmpty then [] else [.emit (.messagesReceived received)])
      ++ (if failed.isEmpty then [] else [.emit (.messagesFailed failed)]))

/-- A frame that asks for a sign of life or gives one. -/
def pingPongFrame (kind : PingPongKind) (pingId : UInt32) : SignalFrame :=
  { kind := FrameKind.pingPong.number, pingPong := some { kind := kind.number, pingId } }

/-- The service asks for a sign of life, or gives one. -/
def onPingPong (m : Machine) (f : PingPongFrame) : Machine × List Action :=
  match PingPongKind.ofNumber? f.kind with
  | some .ping => (m, [.send (pingPongFrame .pong f.pingId)])
  | some .pong => ({ m with outstandingPings := 0 }, [])
  | none => (m, [])

/-- Passes a frame on to the presence of attendees, if the client is joined. -/
def onPresence (m : Machine) (take : Presence → Presence × List Event) :
    Machine × List Action :=
  if m.state.isJoined then
    let (presence, events) := take m.presence
    ({ m with presence }, events.map .emit)
  else (m, [])

/-- Whether a frame of this kind is ignored in this state. -/
def ignores (s : Lifecycle) (kind : FrameKind) : Bool :=
  s == .failed || (s == .closed && kind != .leaveAck)

/-- Passes what a frame holds to its handler; without it the frame is dropped. -/
def withBody {α : Type} (m : Machine) (body : Option α) (handle : α → Machine × List Action) :
    Machine × List Action :=
  match body with
  | some a => handle a
  | none => (m, [])

def onFrame (m : Machine) (kind : FrameKind) (f : SignalFrame) (now : Instant) :
    Machine × List Action :=
  match kind with
  | .joinAck => m.onJoinAck f.joinAck now
  | .leaveAck => m.onLeaveAck
  | .index => m.withBody f.index (m.onIndex · now)
  | .subscribeAck => m.withBody f.subscribeAck m.onSubscribeAck
  | .audioMetadata => m.withBody f.audioMetadata fun b => m.onPresence (·.onAudioMetadata b)
  | .audioStreamIdInfo =>
    m.withBody f.audioStreamIdInfo fun b => m.onPresence (·.onStreamIdInfo b)
  | .audioStatus => m.withBody (f.audioStatus.bind (·.audioStatus)) m.onAudioStatus
  | .dataMessage => m.withBody f.dataMessage m.onDataMessage
  | .pingPong => m.withBody f.pingPong m.onPingPong
  | _ => (m, [])

def onSignal (m : Machine) (f : SignalFrame) (now : Instant) : Machine × List Action :=
  match FrameKind.ofNumber? f.kind with
  | none => (m, [])
  | some kind => if ignores m.state kind then (m, []) else m.onFrame kind f now

/-- Takes a message in. A message that cannot be read is dropped; one of an unknown kind means that
the two sides do not understand each other, and ends the session. -/
def onMessage (m : Machine) (message : Octets) (now : Instant) : Machine × List Action :=
  match Envelope.decode message with
  | .ok (.signal frame) => m.onSignal frame now
  | .ok (.media packet) => if m.state.isJoined then (m, [.deliver packet]) else (m, [])
  | .error e => if e.isFatal then m.fail (.protocol e) else (m, [])

/-! ## The connection -/

def transportLost (m : Machine) : Machine × List Action :=
  if m.state.hasTransport then
    m.moving .transportLost fun m =>
      ({ m with indexed := false, outstandingPings := 0 }, [.reconnect])
  else (m, [])

/-- Takes note that the service closed the connection. Some codes end the session. -/
def transportClosed (m : Machine) (code : Option UInt16) : Machine × List Action :=
  match code.bind Refusal.ofCloseCode? with
  | some refusal => if m.state.isTerminal then m.transportLost else m.fail (.auth refusal)
  | none => m.transportLost

def reconnectExhausted (m : Machine) (attempts : UInt32) : Machine × List Action :=
  m.fail (.connect (.retriesExhausted attempts))

/-- Asks for a sign of life, or gives the connection up if too many went unanswered. -/
def ping (m : Machine) : Machine × List Action :=
  if !m.state.isJoined then (m, [])
  else if maxMissedPings ≤ m.outstandingPings then m.transportLost
  else
    let pingId := m.lastPingId + 1
    ({ m with outstandingPings := m.outstandingPings + 1, lastPingId := pingId },
      [.send (pingPongFrame .ping pingId)])

/-! ## Wishes of the program -/

/-- Leaves the meeting. The service is told if the client is joined. -/
def requestLeave (m : Machine) : Machine × List Action :=
  let farewell : List Action :=
    if m.state.isJoined then [.send { kind := FrameKind.leave.number, leave := some {} }] else []
  m.moving .leave fun m => (m, farewell ++ [.emit .closed])

/-- Mutes or unmutes. The service is told if the client is joined. -/
def setMute (m : Machine) (muted : Bool) : Machine × List Action :=
  if m.muted = muted then (m, [])
  else
    ({ m with muted },
      if m.state.isJoined then
        [.send { kind := FrameKind.audioControl.number
                 audioControl := some { muted := some muted } }]
      else [])

/-- Sends a message to the other attendees, or reports what is wrong with it. -/
def sendDataMessage (m : Machine) (message : OutgoingMessage) : Machine × List Action :=
  if !m.state.isJoined then (m, [])
  else match message.validate with
    | .ok lifetimeMs =>
      (m, [.send { kind := FrameKind.dataMessage.number
                   dataMessage := some { messages := [message.payload lifetimeMs] } }])
    | .error reason => (m, [.emit (.messagesFailed [message.failed reason])])

/-! ## All inputs together -/

inductive Input where
  | start
  | transportUp
  | submitJoin
  | message (bytes : Octets) (now : Instant)
  | ping
  | leave
  | transportLost
  | transportClosed (code : Option UInt16)
  | reconnectExhausted (attempts : UInt32)
  | setMute (muted : Bool)
  | sendDataMessage (message : OutgoingMessage)
  | resubscribe
  deriving DecidableEq

/-- The next machine, and what its owner is asked to do. -/
def step (m : Machine) : Input → Machine × List Action
  | .start => m.start
  | .transportUp => m.transportUp
  | .submitJoin => m.submitJoin
  | .message bytes now => m.onMessage bytes now
  | .ping => m.ping
  | .leave => m.requestLeave
  | .transportLost => m.transportLost
  | .transportClosed code => m.transportClosed code
  | .reconnectExhausted attempts => m.reconnectExhausted attempts
  | .setMute muted => m.setMute muted
  | .sendDataMessage message => m.sendDataMessage message
  | .resubscribe => m.resubscribe

/-- The machine after some inputs, and what each of them asked for. -/
def run (m : Machine) : List Input → Machine × List (List Action)
  | [] => (m, [])
  | input :: rest =>
    let (m, actions) := m.step input
    let (m, more) := run m rest
    (m, actions :: more)

theorem run_concat (m : Machine) (past : List Input) (input : Input) :
    m.run (past ++ [input]) =
      (((m.run past).1.step input).1, (m.run past).2 ++ [((m.run past).1.step input).2]) := by
  induction past generalizing m with
  | nil => rfl
  | cons earlier past ih => simp only [List.cons_append, run, ih]

end Machine

end Parley
