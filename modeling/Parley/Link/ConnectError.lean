import Parley.Text.Span

/-!
# `Parley/Link/ConnectError.lean` — what goes wrong with connections
-/

set_option autoImplicit false

namespace Parley

inductive ConnectError where
  | invalidUrl (url : String)
  | timeout (after : Span)
  | handshake (cause : String)
  | closed
  | retriesExhausted (attempts : UInt32)
  deriving DecidableEq

namespace ConnectError

def message : ConnectError → String
  | .invalidUrl url => "invalid signaling url: " ++ url
  | .timeout after => "websocket handshake timed out after " ++ after.text
  | .handshake cause => "websocket connect failed: " ++ cause
  | .closed => "channel closed while connecting"
  | .retriesExhausted attempts =>
    "gave up after " ++ toString attempts ++ " reconnect attempts"

end ConnectError

inductive SendError where
  /-- The channel is closed on this side. -/
  | closed
  /-- The connection takes no messages. -/
  | transport (cause : String)
  deriving DecidableEq

def SendError.message : SendError → String
  | .closed => "channel is closed"
  | .transport cause => "transport send failed: " ++ cause

end Parley
