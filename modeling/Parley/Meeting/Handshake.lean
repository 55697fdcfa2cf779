import Parley.Meeting.Descriptor
import Parley.Text.Span

/-!
# `Parley/Meeting/Handshake.lean` — what a connection is opened with

A web socket handshake names the address, proves who asks, and says which revision of the control
protocol is spoken. The join token travels in the cookie header and nowhere else: the description of
a handshake hides it.
-/

set_option autoImplicit false

namespace Parley

/-- What is needed to dial a signaling service. -/
structure Handshake where
  url : String
  joinToken : String
  /-- How long an answer may take. -/
  connectTimeout : Span := .ofSeconds 10
  deriving DecidableEq

namespace Handshake

/-- The handshake that joins a described meeting. -/
def ofDescriptor (d : Descriptor) (connectTimeout : Span) : Handshake :=
  { url := d.signalingUrl.text, joinToken := d.joinToken, connectTimeout }

/-- The headers that are sent besides the usual ones, by name and value. -/
def headers (h : Handshake) : List (String × String) :=
  [("Cookie", "_aws_wt_session=" ++ h.joinToken), ("X-Chime-Control-Protocol-Version", "3")]

/-- A full description of a handshake, its secret apart. -/
def description (h : Handshake) : String :=
  "TransportConfig \x7b url: " ++ Text.quote h.url
    ++ ", join_token: " ++ Descriptor.redacted
    ++ ", connect_timeout: " ++ h.connectTimeout.text ++ " \x7d"

end Handshake

end Parley
