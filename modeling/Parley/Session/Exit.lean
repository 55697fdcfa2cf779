import Parley.Signaling.Lifecycle
import Parley.Text.Span

/-!
# `Parley/Session/Exit.lean` — how a session ends
-/

set_option autoImplicit false

namespace Parley

/-- How a session ended, as the program's caller sees it. -/
inductive ExitStatus where
  /-- The meeting was left in good order. -/
  | success
  | failed
  /-- The session was never begun. -/
  | invalidArguments
  deriving DecidableEq

/-- How a session ended whose client ended in this state. -/
def ExitStatus.ofState (s : Lifecycle) : ExitStatus := if s = .failed then .failed else .success

def ExitStatus.code : ExitStatus → Nat
  | .success => 0
  | .failed => 1
  | .invalidArguments => 2

def ExitStatus.name : ExitStatus → String
  | .success => "Success"
  | .failed => "Failed"
  | .invalidArguments => "InvalidArguments"

/-- What can go wrong while a session is wound up. It is reported and changes nothing. -/
inductive ShutdownError where
  | leaveTimeout (after : Span)
  | task (detail : String)
  deriving DecidableEq

def ShutdownError.message : ShutdownError → String
  | .leaveTimeout after => "leave was not acknowledged within " ++ after.text
  | .task detail => "task did not finish cleanly: " ++ detail

/-- The complaint about a command to a client that has ended. -/
def clientGoneMessage : String := "client stopped unexpectedly"

end Parley
