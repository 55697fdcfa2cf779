import Parley.Link.ConnectError
import Parley.Signaling.DataMessage
import Parley.Signaling.Refusal
import Parley.Wire.Envelope

/-!
# `Parley/Signaling/Event.lean` — what the client tells the rest of the program
-/

set_option autoImplicit false

namespace Parley

/-- A new level of an attendee, from 0 to 1. -/
structure LevelUpdate where
  attendee : Attendee
  level : Rat
  deriving DecidableEq

inductive FailureReason where
  | auth (cause : Refusal)
  | protocol (cause : Wire.ProtocolError)
  | connect (cause : ConnectError)
  deriving DecidableEq

def FailureReason.message : FailureReason → String
  | .auth cause => cause.message
  | .protocol cause => cause.message
  | .connect cause => cause.message

inductive Event where
  /-- The service let us in. -/
  | joined (codec : Codec) (turn : Option TurnAccess)
  /-- The first index after a join is in: the session is fully up. -/
  | started (turn : Option TurnAccess) (sources : List VideoSource)
  | mediaRenegotiated (codec : Codec) (sdpAnswer : String)
  | videoSourcesAvailable (sources : List VideoSource)
  | videoSourcesUnavailable (sources : List VideoSource)
  | attendeeJoined (attendee : Attendee)
  | attendeeLeft (attendee : Attendee)
  | attendeeDropped (attendee : Attendee)
  | attendeeMuted (attendee : Attendee)
  | attendeeUnmuted (attendee : Attendee)
  | volumes (updates : List LevelUpdate)
  | signalStrengths (updates : List LevelUpdate)
  | messagesReceived (messages : List ReceivedMessage)
  | messagesFailed (messages : List FailedMessage)
  | audioStatus (status : UInt32)
  | leaveAcknowledged
  /-- The meeting ended, or we left it. -/
  | closed
  | failed (reason : FailureReason)
  deriving DecidableEq

end Parley
