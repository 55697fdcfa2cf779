/-!
# `Parley/Signaling/Lifecycle.lean` — the states of one session

A session dials, joins, may lose its connection and dial again, and ends in one of two **terminal**
states that nothing leaves. `after?` is the whole table of moves: a pair that it does not list is
refused and changes nothing.
-/

set_option autoImplicit false

namespace Parley

inductive Lifecycle where
  | disconnected
  | connecting
  /-- Connected, the join not sent yet. -/
  | connected
  /-- The join is sent and not answered. -/
  | authenticating
  | joined
  /-- The connection is lost; dialing again. -/
  | reconnecting
  | closed
  | failed
  deriving DecidableEq

inductive Move where
  | start
  | transportUp
  | joinSent
  | joinAccepted
  | transportLost
  | leave
  | remoteLeave
  | fail
  deriving DecidableEq

namespace Move

def name : Move → String
  | .start => "Start"
  | .transportUp => "TransportUp"
  | .joinSent => "JoinSent"
  | .joinAccepted => "JoinAccepted"
  | .transportLost => "TransportLost"
  | .leave => "Leave"
  | .remoteLeave => "RemoteLeave"
  | .fail => "Fail"

def all : List Move :=
  [.start, .transportUp, .joinSent, .joinAccepted, .transportLost, .leave, .remoteLeave, .fail]

def ofName? (name : String) : Option Move := all.find? (·.name == name)

end Move

namespace Lifecycle

def name : Lifecycle → String
  | .disconnected => "disconnected"
  | .connecting => "connecting"
  | .connected => "connected"
  | .authenticating => "authenticating"
  | .joined => "joined"
  | .reconnecting => "reconnecting"
  | .closed => "closed"
  | .failed => "failed"

def all : List Lifecycle :=
  [.disconnected, .connecting, .connected, .authenticating, .joined, .reconnecting, .closed,
    .failed]

def ofName? (name : String) : Option Lifecycle := all.find? (·.name == name)

/-- Whether the session is over. -/
def isTerminal : Lifecycle → Bool
  | .closed | .failed => true
  | _ => false

def isJoined : Lifecycle → Bool
  | .joined => true
  | _ => false

/-- Whether a connection may be lost in this state. -/
def hasTransport : Lifecycle → Bool
  | .connecting | .connected | .authenticating | .joined => true
  | _ => false

/-- The state after a move, if the move is allowed. -/
def after? (s : Lifecycle) (m : Move) : Option Lifecycle :=
  match s, m with
  | .disconnected, .start => some .connecting
  | .connecting, .transportUp => some .connected
  | .reconnecting, .transportUp => some .authenticating
  | .connected, .joinSent => some .authenticating
  | .authenticating, .joinAccepted => some .joined
  | s, .transportLost =>
    if s.hasTransport || s = .reconnecting then some .reconnecting else none
  | s, .leave | s, .remoteLeave => if s.isTerminal then none else some .closed
  | s, .fail => if s.isTerminal then none else some .failed
  | _, _ => none

/-- The complaint about a move that is not allowed. -/
def refusal (s : Lifecycle) (m : Move) : String :=
  "invalid transition " ++ m.name ++ " in state " ++ s.name

/-- Nothing leaves a terminal state. -/
theorem after?_eq_none_of_isTerminal {s : Lifecycle} (h : s.isTerminal = true) (m : Move) :
    s.after? m = none := by
  cases s <;> cases m <;> simp_all [after?, isTerminal, hasTransport]

theorem isJoined_of_isTerminal {s : Lifecycle} (h : s.isTerminal = true) : s.isJoined = false := by
  cases s with
  | joined => exact absurd h (by decide)
  | _ => rfl

theorem hasTransport_of_isTerminal {s : Lifecycle} (h : s.isTerminal = true) :
    s.hasTransport = false := by
  cases s with
  | closed | failed => rfl
  | _ => exact absurd h (by decide)

end Lifecycle

end Parley
