import Parley.Rtp.Packet
import Parley.Text.Numeral
import Parley.Wire.SignalFrame

/-!
# `Parley/Wire/Envelope.lean` — what a web socket message holds

The first byte of a message says what the others are: a signal frame or a packet of media. A signal
frame is stamped with the time when it is put into its envelope.
-/

set_option autoImplicit false

namespace Parley.Wire

inductive ProtocolError where
  | tooShort (bytes : Nat)
  | unsupportedVersion (kind : UInt8)
  | undecodable
  | missingField (name : String)
  | rtp (cause : Rtp.Malformed)
  deriving DecidableEq

namespace ProtocolError

/-- Whether the session cannot go on. -/
def isFatal : ProtocolError → Bool
  | .unsupportedVersion _ => true
  | _ => false

def message : ProtocolError → String
  | .tooShort bytes => "message too short: " ++ toString bytes ++ " bytes"
  | .unsupportedVersion kind =>
    "unsupported protocol message kind 0x" ++ Text.hexByte kind
  | .undecodable => "failed to decode signal frame"
  | .missingField name => "signal frame is missing " ++ name
  | .rtp cause => "malformed rtp packet: " ++ cause.message

end ProtocolError

inductive Content where
  | signal (frame : SignalFrame)
  | media (packet : Octets)
  deriving DecidableEq

namespace Envelope

/-- The first byte of a signal frame's message. -/
def signalKind : UInt8 := 0x02

/-- The first byte of a media packet's message. -/
def mediaKind : UInt8 := 0x05

/-- The levels of messages and groups that a signal frame may nest. -/
def maxDepth : Nat := 100

def decodeFrame (bytes : Octets) : Option SignalFrame :=
  SignalFrame.schema.read maxDepth {} [bytes]

/-- Reads a message. The kind byte alone is no message. -/
def decode (message : Octets) : Except ProtocolError Content :=
  match message with
  | kind :: b :: rest =>
    if kind = signalKind then
      match decodeFrame (b :: rest) with
      | some frame => .ok (.signal frame)
      | none => .error .undecodable
    else if kind = mediaKind then .ok (.media (b :: rest))
    else .error (.unsupportedVersion kind)
  | _ => .error (.tooShort message.length)

/-- A signal frame with its time of sending. -/
def stamp (frame : SignalFrame) (nowMs : UInt64) : SignalFrame :=
  { frame with timestampMs := nowMs }

/-- The message of a signal frame that is sent now. -/
def encodeSignal (frame : SignalFrame) (nowMs : UInt64) : Octets :=
  signalKind :: SignalFrame.schema.encode (stamp frame nowMs)

/-- The message of a media packet. -/
def encodeMedia (packet : Octets) : Octets := mediaKind :: packet

/-- The message that is sent now. -/
def encode (content : Content) (nowMs : UInt64) : Octets :=
  match content with
  | .signal frame => encodeSignal frame nowMs
  | .media packet => encodeMedia packet

end Envelope

end Parley.Wire
