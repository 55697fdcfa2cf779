import Parley.Link.Loopback
import Parley.Meeting.SignalingUrl
import Parley.Text.Span

/-!
# `Parley/Link/Channel.lean` — one connection to the service

A channel owns a line that is up. It closes its line once, however often it is told to, and sends
nothing after that. A line that does not say at first that it is up makes no channel; it is closed
at once.
-/

set_option autoImplicit false

namespace Parley

/-- An open connection, or one that this side has closed. -/
structure Channel where
  line : Nat
  closed : Bool := false
  deriving DecidableEq

namespace Channel

/-- Dials an address. A dial that is not answered is given up after the timeout. -/
def connect (n : Loopback) (url : String) (timeout : Span) :
    Except ConnectError Channel × Loopback :=
  if SignalingUrl.isValid url then
    match n.dial with
    | (none, n) | (some .timedOut, n) => (.error (.timeout timeout), n)
    | (some .refused, n) => (.error (.handshake "connection refused"), n)
    | (some (.opened (some .connected)), next) => (.ok { line := n.lines.length }, next)
    | (some (.opened _), next) => (.error .closed, next.disconnect n.lines.length)
  else (.error (.invalidUrl url), n)

def send (c : Channel) (n : Loopback) (message : Octets) : Except SendError Loopback :=
  if c.closed then .error .closed else n.send c.line message

def close (c : Channel) (n : Loopback) : Channel × Loopback :=
  if c.closed then (c, n) else ({ c with closed := true }, n.disconnect c.line)

end Channel

end Parley
