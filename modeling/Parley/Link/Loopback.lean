import Parley.Link.ConnectError
import Parley.Octets

/-!
# `Parley/Link/Loopback.lean` — a service in memory

A client can be run against a service in memory instead of one behind a network. Every dial hands
out a **line** or none. How the dials go is planned ahead; once the plans are used up, each dial
reaches the service. What is put on a line is heard on it in the same order, and the first thing is
on the line before the line is handed out.

Lines are numbered from zero as they are handed out. Only some of them reach the service: a line may
just as well come up with nobody at its other end. Those that do are its **connections**, numbered
likewise.
-/

set_option autoImplicit false

namespace Parley

inductive LinkEvent where
  | connected
  | message (bytes : Octets)
  /-- The other end closed the line, with a code or without. -/
  | disconnected (code : Option UInt16)
  deriving DecidableEq

/-- What a dial leads to. -/
inductive DialOutcome where
  | refused
  | timedOut
  /-- A line is handed out. This is the first thing heard on it; none if nothing is ever heard. -/
  | opened (first : Option LinkEvent)
  deriving DecidableEq

/-- How a dial is planned to go. -/
inductive DialPlan where
  | refused
  /-- It is never answered. -/
  | unanswered
  /-- A line comes up on which nothing is heard. -/
  | silent
  /-- A line comes up on which the first thing heard is that it is closed. -/
  | disconnected
  /-- A line comes up, says so, and does nothing else. -/
  | dead
  | reached
  deriving DecidableEq

structure Line where
  /-- What is not heard yet, the next thing first. -/
  inbox : List LinkEvent
  /-- Why messages cannot be sent, if they cannot. -/
  fault : Option String := none
  /-- Whether nothing will follow what is in the inbox. -/
  ended : Bool := false
  /-- Whether the client closed the line. -/
  closed : Bool := false
  /-- Its number among the connections of the service, if it is one. -/
  connection : Option Nat := none
  /-- Messages that reached the service and were not collected. -/
  arrived : List Octets := []
  deriving DecidableEq

structure Loopback where
  /-- How the next dials go. -/
  plans : List DialPlan := []
  /-- All lines so far, by their numbers. -/
  lines : List Line := []
  dials : Nat := 0
  connections : Nat := 0
  /-- The line of the newest connection, unless the service has hung up on it. -/
  newest : Option Nat := none
  deriving DecidableEq

namespace Loopback

/-- The number of lines that the client has closed. -/
def disconnects (n : Loopback) : Nat := n.lines.countP (·.closed)

def line? (n : Loopback) (line : Nat) : Option Line := n.lines[line]?

def modifyLine (n : Loopback) (line : Nat) (f : Line → Line) : Loopback :=
  { n with lines := n.lines.modify line f }

/-! ## The client's end -/

/-- Hands out a line, after its first event. -/
def handOut (n : Loopback) (line : Line) : Option DialOutcome × Loopback :=
  (some (.opened line.inbox.head?),
    { n with lines := n.lines ++ [{ line with inbox := line.inbox.tail }] })

/-- Dials; the outcome is none if the dial is not answered. -/
def dial (n : Loopback) : Option DialOutcome × Loopback :=
  let plan := n.plans.headD .reached
  let n := { n with plans := n.plans.tail, dials := n.dials + 1 }
  match plan with
  | .refused => (some .refused, n)
  | .unanswered => (none, n)
  | .silent => n.handOut { inbox := [], ended := true }
  | .disconnected => n.handOut { inbox := [.disconnected none], ended := true }
  | .dead => n.handOut { inbox := [.connected], ended := true, fault := some "send failed" }
  | .reached =>
    { n with newest := some n.lines.length, connections := n.connections + 1 }.handOut
      { inbox := [.connected], connection := some n.connections }

/-- Listens on a line; none if there is nothing to hear for now. What is heard is an event, or that
nothing will follow. -/
def listen (n : Loopback) (line : Nat) : Option (Option LinkEvent × Loopback) := do
  let l ← n.line? line
  match l.inbox with
  | event :: inbox => return (some event, n.modifyLine line fun l => { l with inbox })
  | [] => if l.ended then return (none, n) else none

def send (n : Loopback) (line : Nat) (message : Octets) : Except SendError Loopback :=
  match (n.line? line).bind (·.fault) with
  | some cause => .error (.transport cause)
  | none => .ok (n.modifyLine line fun l => { l with arrived := l.arrived ++ [message] })

def disconnect (n : Loopback) (line : Nat) : Loopback :=
  n.modifyLine line fun l => { l with closed := true }

/-! ## The service's end -/

/-- Lets something be heard on the newest connection. -/
def deliver (n : Loopback) (event : LinkEvent) : Loopback :=
  match n.newest with
  | some line => n.modifyLine line fun l => { l with inbox := l.inbox ++ [event] }
  | none => n

/-- Lets go of the newest connection: nothing follows on it, and it takes no more messages. -/
def hangUp (n : Loopback) : Loopback :=
  match n.newest with
  | some line =>
    { n with newest := none }.modifyLine line fun l =>
      { l with ended := true, fault := some "mock server went away" }
  | none => n

/-- Whether the client closed the newest connection; none if there is none. -/
def closedByClient (n : Loopback) : Option Bool := do
  let l ← n.line? (← n.newest)
  return l.closed

/-- The messages that have reached the service since the last time, by connection. -/
def collect (n : Loopback) : List (Nat × Octets) × Loopback :=
  (n.lines.flatMap fun l => match l.connection with
      | some connection => l.arrived.map fun message => (connection, message)
      | none => [],
    { n with lines := n.lines.map fun l => { l with arrived := [] } })

end Loopback

end Parley
