import Parley.Client.Rehearsal
import Parley.Pipeline.Receiver
import Parley.Pipeline.Sender
import Parley.Session.Exit

/-!
# `Parley/Session/Rehearsal.lean` — a whole session run against a service in memory

A session joins a meeting, sends the audio of a file and records the audio of others, until it is
told to stop or the client's session is over. Media start with the first join. On its way out a
session leaves the meeting, waits for the service to agree, but only so long; then it stops media,
and at last the client.

The waiting clock of the client's rehearsal also paces the audio. Between two moves of the clock
everything goes on until nothing is left to do. A request to stop comes before news of the client,
and news before alerts.
-/

set_option autoImplicit false

namespace Parley

structure SessionOptions where
  client : ClientOptions := {}
  receiver : ReceiverConfig := {}
  /-- The packets that may wait for the connection. -/
  sendQueueDepth : Nat := 50
  /-- How long a leave may go unacknowledged. -/
  leaveGrace : Span := .ofSeconds 2
  deriving DecidableEq

/-- Ends a receiver, with its streams played out in the order in which they were last heard. Any other
order would do, but a rehearsal is to go the same way each time. -/
def Receiver.finish (r : Receiver) : Receiver := r.finishIn r.streams.keys.reverse

/-- Both directions of media. -/
structure MediaPaths where
  receiver : Receiver
  /-- None if there is no audio to send. -/
  sending : Option SendPath
  /-- When the next chunk of audio is due. -/
  nextTick : Nat

/-- What a session is busy with. -/
inductive SessionPhase where
  | running
  /-- It has asked to leave, and waits for an answer until this time. -/
  | leaving (deadline : Nat)
  | over
  deriving DecidableEq

/-- A session and a service in memory. -/
structure Session where
  options : SessionOptions
  rehearsal : Rehearsal
  faults : FaultPlan
  /-- The audio to send, until media start. -/
  audio : Option AudioFile
  /-- The codec agreed on. -/
  codec : Codec := .pcmu
  /-- None until the first join. -/
  media : Option MediaPaths := none
  stopping : Bool := false
  phase : SessionPhase := .running
  /-- What has reached the service and was not taken. -/
  arrived : Arrivals := {}

namespace Session

/-- The time from one chunk of audio to the next. -/
def tickLength : Span := .ofMillis Codec.frameMillis

/-- A session before anything has happened. It sends audio if its file can be read. -/
def new (descriptor : Descriptor) (options : SessionOptions) (audio : Option AudioFile)
    (faults : FaultPlan) (offerId : UInt64) (plans : List DialPlan) : Session :=
  let signaling := { options.client.signaling with sendAudio := audio.isSome }
  { options, faults, audio
    rehearsal := .new descriptor { options.client with signaling } offerId plans }

def state (s : Session) : Lifecycle := s.rehearsal.client.state

/-! ## Media -/

/-- Starts media, unless they have been started. -/
def startMedia (s : Session) : Session :=
  match s.media with
  | some _ => s
  | none =>
    { s with
      audio := none
      media := some {
        receiver := { config := s.options.receiver, recorder := { faults := s.faults } }
        sending := s.audio.map fun f => .ofFile f s.codec s.options.sendQueueDepth
        nextTick := s.rehearsal.clock } }

/-- Stops media. Packets that are still waiting are taken in first. -/
def stopMedia (s : Session) : Session :=
  let (packets, rehearsal) := s.rehearsal.takeInbound
  { s with
    rehearsal
    media := s.media.map fun m =>
      { m with
        receiver := (packets.foldl (fun r p => r.take s.state.isJoined p) m.receiver).finish
        sending := m.sending.map SendPath.stop } }

/-- Takes a chunk of audio, and gives what comes of it to the client. -/
def tick (s : Session) (m : MediaPaths) (sending : SendPath) : Session :=
  let (packets, sending) := (sending.tick s.state.isJoined s.codec).takePackets
  let nextTick := Rehearsal.dueAfter tickLength m.nextTick s.rehearsal.clock
  { s with
    media := some { m with sending := some sending, nextTick }
    rehearsal := packets.foldl Rehearsal.offer s.rehearsal }

/-- Lets the next thing happen to media, if anything is left before the clock moves. -/
def nextOfMedia (s : Session) : Option Session := do
  let m ← s.media
  match s.rehearsal.inbound with
  | packet :: inbound =>
    return { s with
      rehearsal := { s.rehearsal with inbound }
      media := some { m with receiver := m.receiver.take s.state.isJoined packet } }
  | [] =>
    let sending ← m.sending
    if sending.ended || s.rehearsal.clock < m.nextTick then none else return s.tick m sending

/-! ## The way out -/

def windUp (s : Session) : Session :=
  let s := s.stopMedia
  { s with rehearsal := s.rehearsal.stop, phase := .over }

/-- Asks to leave, unless the session is over or the client is dialing, when it would not listen. -/
def leave (s : Session) : Session :=
  if s.state.isTerminal || s.rehearsal.client.isConnecting then s.windUp
  else match s.rehearsal.request .leave with
    | none => s.windUp
    | some rehearsal =>
      { s with
        rehearsal
        phase := .leaving (rehearsal.clock + s.options.leaveGrace.nanos) }

/-! ## News and alerts -/

/-- Acts on news of the client. -/
def onEvent (s : Session) : Event → Session
  | .joined codec _ => { s with codec }.startMedia
  | .mediaRenegotiated codec _ => { s with codec }
  | .closed | .failed _ => s.leave
  | _ => s

/-- Whether news mean that nothing more is to come of a leave. -/
def endsLeave : Event → Bool
  | .leaveAcknowledged | .failed _ => true
  | _ => false

/-- Acts on an alert: audio that cannot be decoded for long is negotiated again. -/
def onAlert (s : Session) : MediaError → Session
  | .sustainedDecodeFailure _ =>
    { s with rehearsal := (s.rehearsal.request .resubscribe).getD s.rehearsal }
  | _ => s

/-- The next alert, which is taken. -/
def takeAlert (s : Session) : Option (MediaError × Session) := do
  let m ← s.media
  match m.receiver.alerts.waiting with
  | [] => none
  | alert :: waiting =>
    let receiver := { m.receiver with alerts := { m.receiver.alerts with waiting } }
    return (alert, { s with media := some { m with receiver } })

/-- The next piece of news, which is taken. -/
def takeEvent (s : Session) : Option (Event × Session) :=
  match s.rehearsal.events with
  | [] => none
  | event :: events => some (event, { s with rehearsal := { s.rehearsal with events } })

/-- Lets the next thing happen while the session runs, if anything is left. -/
def nextWhileRunning (s : Session) : Option Session :=
  if s.stopping then some s.leave
  else match s.takeEvent, s.takeAlert with
    | some (event, s), _ => some (s.onEvent event)
    | none, some (alert, s) => some (s.onAlert alert)
    | none, none => if s.rehearsal.isDone then some s.leave else s.nextOfMedia

/-- Lets the next thing happen while the session waits to leave, if anything is left. -/
def nextWhileLeaving (s : Session) (deadline : Nat) : Option Session :=
  match s.takeEvent with
  | some (event, s) => some (if endsLeave event then s.windUp else s)
  | none =>
    if s.rehearsal.isDone || deadline ≤ s.rehearsal.clock then some s.windUp else s.nextOfMedia

/-- Lets the next thing happen, if anything is left before the clock moves. -/
def next (s : Session) : Option Session :=
  match s.phase with
  | .running => s.nextWhileRunning
  | .leaving deadline => s.nextWhileLeaving deadline
  | .over => none

def settleWithin : (steps : Nat) → Session → Session
  | 0, s => s
  | steps + 1, s => match s.next with
    | some s => settleWithin steps s
    | none => s

/-- More things than can happen before the clock moves: each packet that waits may raise as many
alerts as a queue holds, each event is taken once, and media and the way out take a few more. -/
def workload (s : Session) : Nat :=
  (AlertQueue.capacity + 1) * (s.rehearsal.inbound.length + s.rehearsal.events.length + 8)
    + 4 * s.rehearsal.workload

/-- Lets everything go on until nothing is left to do. -/
def settle (s : Session) : Session := s.settleWithin s.workload

/-! ## What can be done to a session -/

/-- Does something to the client's rehearsal. -/
def withRehearsal (s : Session) (f : Rehearsal → Rehearsal) : Session :=
  { s with rehearsal := f s.rehearsal }.settle

def begin (s : Session) : Session := s.withRehearsal Rehearsal.begin

def serviceActs (s : Session) (f : Loopback → Loopback) : Session :=
  s.withRehearsal (·.serviceActs f)

def advance (s : Session) (span : Span) : Session := s.withRehearsal (·.advance span)

def stop (s : Session) : Session := { s with stopping := true }.settle

/-- Asks the session to stop, and lets so much time pass as it needs. -/
def finish (s : Session) : Session :=
  let s := s.stop
  match s.phase with
  | .leaving deadline => s.advance ⟨deadline - s.rehearsal.clock⟩
  | _ => s

/-- Gathers what has reached the service. -/
def gather (s : Session) : Session :=
  let (new, rehearsal) := s.rehearsal.takeArrived
  { s with
    rehearsal
    arrived := {
      signals := s.arrived.signals ++ new.signals
      media := s.arrived.media ++ new.media } }

/-- Takes the signal frames that have reached the service, by connection. -/
def takeSignals (s : Session) : List (Nat × Wire.SignalFrame) × Session :=
  let s := s.gather
  (s.arrived.signals, { s with arrived := { s.arrived with signals := [] } })

/-- Takes the first media packet that has reached the service, if there is one. -/
def takePacket (s : Session) : List Octets × Session :=
  match s.arrived.media with
  | packet :: media => ([packet], { s with arrived := { s.arrived with media } })
  | [] => ([], s)

/-- Takes so many media packets. For each one that has not reached the service yet, the time of one
chunk passes. -/
def pump (s : Session) : (frames : Nat) → List Octets × Session
  | 0 => ([], s)
  | frames + 1 =>
    let s := s.gather
    let s := if s.arrived.media.isEmpty then (s.advance tickLength).gather else s
    let (packet, s) := s.takePacket
    let (packets, s) := s.pump frames
    (packet ++ packets, s)

/-- How the session ended. -/
def status (s : Session) : ExitStatus := .ofState s.state

/-- The files that remote audio was recorded in, by stream. -/
def files (s : Session) : Table UInt32 Octets :=
  match s.media with
  | some m => m.receiver.recorder.files
  | none => {}

end Session

end Parley
