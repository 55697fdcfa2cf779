import Parley.Client
import Parley.Text.Span

/-!
# `Parley/Client/Rehearsal.lean` — a client run against a service in memory

A rehearsal runs a client against a service in memory, with clocks that move only as told. The
**waiting clock** is moved by `advance`; waits, timeouts and pings are measured by it. The
**calendar**, by which what the service grants expires, moves by one with everything that is heard.

Between two moves of the waiting clock the client goes on until it has nothing more to do. When
several things could happen to it at once, a request to stop comes first; then what is heard on the
line, commands, media to send, and a ping.
-/

set_option autoImplicit false

namespace Parley

/-- What the client of a rehearsal is given. -/
structure ClientOptions where
  /-- How long a dial may go unanswered. -/
  connectTimeout : Span := .ofSeconds 10
  reconnect : ReconnectPolicy := {}
  /-- The time from one ping to the next. -/
  pingInterval : Span := .ofSeconds 10
  signaling : SignalingConfig := {}
  deriving DecidableEq

/-- What has reached the service. -/
structure Arrivals where
  /-- Signal frames, with the numbers of their connections. -/
  signals : List (Nat × Wire.SignalFrame) := []
  media : List Octets := []
  deriving DecidableEq

/-- Reads messages, given with the numbers of their connections. -/
def Arrivals.ofMessages (messages : List (Nat × Octets)) : Arrivals :=
  { signals := messages.filterMap fun (connection, message) =>
      match Wire.Envelope.decode message with
      | .ok (.signal frame) => some (connection, frame)
      | _ => none
    media := messages.filterMap fun (_, message) =>
      match Wire.Envelope.decode message with
      | .ok (.media packet) => some packet
      | _ => none }

structure Rehearsal where
  options : ClientOptions
  client : Client
  network : Loopback := {}
  clock : Nat := 0
  calendar : Instant := 0
  /-- The outcome of the dial under way, once it has one. -/
  outcome : Option DialOutcome := none
  /-- When the wait or the unanswered dial under way ends. -/
  deadline : Nat := 0
  /-- When the next ping falls due, once pings are sent. -/
  nextPing : Option Nat := none
  commands : List Command := []
  outbound : List Octets := []
  stopping : Bool := false
  /-- Events that nobody has taken yet. -/
  events : List Event := []
  /-- Media packets that nobody has taken yet. -/
  inbound : List Octets := []

namespace Rehearsal

/-- The media packets that may wait to be taken; one more is lost. -/
def inboundCapacity : Nat := 50

/-- Something that recurs and is no later than this keeps its rhythm. -/
def tolerance : Span := .ofMillis 5

/-- A rehearsal before anything has happened. Its client's offer names a session of this number. -/
def new (descriptor : Descriptor) (options : ClientOptions) (offerId : UInt64)
    (plans : List DialPlan) : Rehearsal :=
  { options
    client := .new options.reconnect (.new descriptor options.signaling offerId)
    network := { plans } }

def isDone (r : Rehearsal) : Bool := r.client.phase == .stopped

/-! ## Carrying out what the client does -/

/-- The reading of a clock in whole milliseconds. -/
def nowMs (r : Rehearsal) : UInt64 := UInt64.ofNat (r.clock / 1000000)

/-- Lets one deed of the client have its effect, unless it passes on news, which `feed` gathers. A
message that cannot be sent is lost. -/
def carryOut (r : Rehearsal) : Deed → Rehearsal
  | .wait delay => { r with deadline := r.clock + delay.nanos }
  | .dial =>
    let (outcome, network) := r.network.dial
    { r with network, outcome, deadline := r.clock + r.options.connectTimeout.nanos }
  | .take _ | .notify _ => r
  | .close line => { r with network := r.network.disconnect line }
  | .send line content =>
    match r.network.send line (Wire.Envelope.encode content r.nowMs) with
    | .ok network => { r with network }
    | .error _ => r
  | .deliver packet =>
    if r.inbound.length < inboundCapacity then { r with inbound := r.inbound ++ [packet] } else r

/-- The first ping is due a full interval after the client has begun to serve. -/
def schedulePings (r : Rehearsal) : Rehearsal :=
  if r.nextPing.isNone && r.client.phase == .serving then
    { r with nextPing := some (r.clock + r.options.pingInterval.nanos) }
  else r

def feed (r : Rehearsal) (s : Stimulus) : Rehearsal :=
  let client := r.client.step s
  let deeds := client.deeds.toList
  let r := { r with
    client := { client with deeds := #[] }
    events := r.events ++ deeds.filterMap Deed.event? }
  (deeds.foldl carryOut r).schedulePings

/-! ## What happens next -/

/-- When something that recurs is due again that was due at `due` and is done at `now`. Once it is late
the next interval counts from now, so nothing that was missed is made up for. -/
def dueAfter (interval : Span) (due now : Nat) : Nat :=
  if due + tolerance.nanos < now then now + interval.nanos else due + interval.nanos

/-- What happens next to a client that is serving, if anything does. -/
def nextWhileServing (r : Rehearsal) : Option (Stimulus × Rehearsal) :=
  match r.client.line.bind r.network.listen with
  | some (event, network) =>
    some (.heard event r.calendar, { r with network, calendar := r.calendar + 1 })
  | none => match r.commands, r.outbound, r.nextPing with
    | command :: commands, _, _ => some (.command command, { r with commands })
    | [], packet :: outbound, _ => some (.media packet, { r with outbound })
    | [], [], some due =>
      if due ≤ r.clock then
        some (.pingDue, { r with nextPing := some (dueAfter r.options.pingInterval due r.clock) })
      else none
    | [], [], none => none

/-- What happens next, if anything does before the waiting clock moves. -/
def next (r : Rehearsal) : Option (Stimulus × Rehearsal) :=
  match r.client.phase with
  | .stopped => none
  | .idle => some (.begin, r)
  | phase =>
    if r.stopping then some (.stop, r)
    else match phase with
      | .waiting _ => if r.deadline ≤ r.clock then some (.waited, r) else none
      | .dialing _ => match r.outcome with
        | some outcome => some (.dialed outcome, { r with outcome := none })
        | none => if r.deadline ≤ r.clock then some (.dialed .timedOut, r) else none
      | _ => r.nextWhileServing

def settleWithin : (steps : Nat) → Rehearsal → Rehearsal
  | 0, r => r
  | steps + 1, r => match r.next with
    | some (s, r) => settleWithin steps (r.feed s)
    | none => r

/-- More things than can happen before the waiting clock moves. Each plan is worth a wait, a dial and
what is heard of it; everything that is waiting happens once. -/
def workload (r : Rehearsal) : Nat :=
  4 * (r.network.plans.length + (r.network.lines.map (·.inbox.length + 1)).foldr (· + ·) 0
    + r.commands.length + r.outbound.length) + 64

def settle (r : Rehearsal) : Rehearsal := r.settleWithin r.workload

/-! ## What can be done to a rehearsal -/

def begin (r : Rehearsal) : Rehearsal := r.settle

def serviceActs (r : Rehearsal) (f : Loopback → Loopback) : Rehearsal :=
  { r with network := f r.network }.settle

def advance (r : Rehearsal) (span : Span) : Rehearsal :=
  { r with clock := r.clock + span.nanos }.settle

/-- Asks the client for something; it is refused if the client has stopped. -/
def request (r : Rehearsal) (command : Command) : Option Rehearsal :=
  if r.isDone then none else some { r with commands := r.commands ++ [command] }.settle

def offer (r : Rehearsal) (packet : Octets) : Rehearsal :=
  { r with outbound := r.outbound ++ [packet] }.settle

def stop (r : Rehearsal) : Rehearsal := { r with stopping := true }.settle

def takeEvents (r : Rehearsal) : List Event × Rehearsal := (r.events, { r with events := [] })

def takeInbound (r : Rehearsal) : List Octets × Rehearsal := (r.inbound, { r with inbound := [] })

def takeArrived (r : Rehearsal) : Arrivals × Rehearsal :=
  let (messages, network) := r.network.collect
  (.ofMessages messages, { r with network })

end Rehearsal

end Parley
