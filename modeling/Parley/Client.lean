import Parley.Client.ReconnectPolicy
import Parley.Link.Loopback
import Parley.Signaling.Machine

/-!
# `Parley/Client.lean` — a client that keeps itself connected

A client runs a signaling machine over at most one line at a time, and dials anew when the line is
lost. It is told what happens, one **stimulus** after the other, and answers with **deeds**: it
dials, waits, sends, closes lines and passes news and media on. When things happen is not its
business: whoever runs it lets a wait end and a ping fall due.

While the client dials it takes no notice of anything but the dial, the wait before it, and a
request to stop. A stimulus that does not fit the phase of the client changes nothing.
-/

set_option autoImplicit false

namespace Parley

/-- What the program may ask of a client. -/
inductive Command where
  | leave
  | setMute (muted : Bool)
  | sendDataMessage (message : OutgoingMessage)
  /-- Negotiate media again. -/
  | resubscribe
  deriving DecidableEq

def Command.input : Command → Machine.Input
  | .leave => .leave
  | .setMute muted => .setMute muted
  | .sendDataMessage message => .sendDataMessage message
  | .resubscribe => .resubscribe

/-- What happens to a client. -/
inductive Stimulus where
  | begin
  /-- The wait before an attempt is over. -/
  | waited
  | dialed (outcome : DialOutcome)
  /-- Something is heard on the line, or, if it is none, the line has gone silent for good. -/
  | heard (event : Option LinkEvent) (now : Instant)
  | command (command : Command)
  | media (packet : Octets)
  | pingDue
  | stop
  deriving DecidableEq

/-- What a client does. -/
inductive Deed where
  | wait (delay : Span)
  | dial
  /-- It takes a line that was handed out. -/
  | take (line : Nat)
  | close (line : Nat)
  | send (line : Nat) (content : Wire.Content)
  | notify (event : Event)
  | deliver (packet : Octets)
  deriving DecidableEq

/-- The news that a deed passes on, if it does. -/
def Deed.event? : Deed → Option Event
  | .notify event => some event
  | _ => none

/-- What a client is busy with. -/
inductive Phase where
  | idle
  /-- It waits before the attempt of this number. -/
  | waiting (attempt : Nat)
  /-- It has dialed; the attempt at once has the number zero. -/
  | dialing (attempt : Nat)
  | serving
  | stopped
  deriving DecidableEq

structure Client where
  policy : ReconnectPolicy
  machine : Machine
  phase : Phase := .idle
  line : Option Nat := none
  /-- The number of lines that it was handed. -/
  taken : Nat := 0
  deeds : Array Deed := #[]

namespace Client

def new (policy : ReconnectPolicy) (machine : Machine) : Client := { policy, machine }

def state (c : Client) : Lifecycle := c.machine.state

/-- Whether the client dials or waits to dial. -/
def isConnecting (c : Client) : Bool :=
  match c.phase with
  | .waiting _ | .dialing _ => true
  | _ => false

def act (c : Client) (deed : Deed) : Client := { c with deeds := c.deeds.push deed }

def closeLine (c : Client) : Client :=
  match c.line with
  | some line => { c with line := none }.act (.close line)
  | none => c

def send (c : Client) (content : Wire.Content) : Client :=
  match c.line with
  | some line => c.act (.send line content)
  | none => c

/-! ## Obeying the machine -/

/-- Does one thing that the machine asks for. To connect again begins with closing the line. -/
def perform (c : Client) : Action → Client
  | .send frame => c.send (.signal frame)
  | .emit event => c.act (.notify event)
  | .deliver packet => c.act (.deliver packet)
  | .closeTransport | .reconnect => c.closeLine

def performAll (c : Client) (actions : List Action) : Client := actions.foldl perform c

/-- Tells the machine that no attempt is left. -/
def giveUp (c : Client) : Client :=
  let (machine, actions) := c.machine.step (.reconnectExhausted c.policy.maxAttempts)
  { c with machine, phase := .serving }.performAll actions

/-- Waits for the attempt of this number, counted from one, or gives up if there is none. -/
def redial (c : Client) (attempt : Nat) : Client :=
  match c.policy.delayFor attempt with
  | some delay => { c with phase := .waiting attempt }.act (.wait delay)
  | none => c.giveUp

def dial (c : Client) (attempt : Nat) : Client :=
  { c with phase := .dialing attempt }.act .dial

/-- Does what the machine asks for. To connect again is the last thing that it ever asks for. -/
def obey (c : Client) (actions : List Action) : Client :=
  let c := c.performAll actions
  if actions.contains .reconnect then c.redial 1 else c

def drive (c : Client) (input : Machine.Input) : Client :=
  let (machine, actions) := c.machine.step input
  { c with machine }.obey actions

/-! ## Stimuli -/

def start (c : Client) : Client := (c.drive .start).dial 0

/-- Goes on after a dial. A line that does not say at first that it is up is closed. -/
def dialed (c : Client) (attempt : Nat) : DialOutcome → Client
  | .opened first =>
    let line := c.taken
    let c := { c with taken := line + 1 }.act (.take line)
    if first = some .connected then
      { c with line := some line, phase := .serving }.drive .transportUp
    else (c.act (.close line)).redial (attempt + 1)
  | .refused | .timedOut => c.redial (attempt + 1)

/-- Leaves the meeting while serving. Unless the client is joined nothing will answer, and the line
is closed at once. -/
def leave (c : Client) : Client :=
  let (machine, actions) := c.machine.step .leave
  let unanswered := !c.state.isJoined && !actions.isEmpty
  { c with machine }.obey (if unanswered then actions ++ [Action.closeTransport] else actions)

def heard (c : Client) (now : Instant) : Option LinkEvent → Client
  | some .connected => c
  | some (.message bytes) => c.drive (.message bytes now)
  | some (.disconnected code) => c.closeLine.drive (.transportClosed code)
  | none => c.closeLine.drive .transportLost

def obeyCommand (c : Client) : Command → Client
  | .leave => c.leave
  | command => c.drive command.input

def sendMedia (c : Client) (packet : Octets) : Client :=
  if c.state.isJoined then c.send (.media packet) else c

/-- Stops for good. The session stays where it stands. -/
def halt (c : Client) : Client := { c.closeLine with phase := .stopped }

def abandonDial (c : Client) : Client := { c with phase := .serving }.drive .leave

/-- Stops once the session is over and the line is closed. -/
def retire (c : Client) : Client :=
  if c.phase = .serving ∧ c.state.isTerminal ∧ c.line = none then c.halt else c

def serve (c : Client) : Stimulus → Client
  | .heard event now => if c.line.isSome then c.heard now event else c
  | .command command => c.obeyCommand command
  | .media packet => c.sendMedia packet
  | .pingDue => c.drive .ping
  | .stop => c.halt
  | _ => c

def step (c : Client) (s : Stimulus) : Client :=
  match c.phase, s with
  | .idle, .begin => c.start
  | .waiting attempt, .waited => c.dial attempt
  | .dialing attempt, .dialed outcome => (c.dialed attempt outcome).retire
  | .waiting _, .stop | .dialing _, .stop => c.abandonDial.retire
  | .serving, s => (c.serve s).retire
  | _, _ => c

def run (c : Client) (stimuli : List Stimulus) : Client := stimuli.foldl step c

end Client

end Parley
