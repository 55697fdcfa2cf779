import Parley.Octets
import Parley.Signaling.Attendee
import Parley.Wire.SignalFrame

/-!
# `Parley/Signaling/DataMessage.lean` — messages from attendee to attendee

The service relays messages under a topic. What goes out is checked first: its size, then its topic,
then its lifetime. What comes in is either a message of another attendee or one of our own that the
service did not relay, which it marks by an ingest time of zero.
-/

set_option autoImplicit false

namespace Parley

open Parley.Wire

inductive Undelivered where
  | throttled
  | invalidTopic
  | invalidSize
  | invalidLifetime
  deriving DecidableEq

structure FailedMessage where
  topic : String
  data : Octets
  reason : Undelivered
  deriving DecidableEq

structure ReceivedMessage where
  /-- When the service took it in, in milliseconds. -/
  timestampMs : Int64
  topic : String
  data : Octets
  sender : Attendee
  deriving DecidableEq

/-- A message to send. -/
structure OutgoingMessage where
  topic : String
  data : Octets
  /-- How long the service keeps it for late joiners. -/
  lifetimeMs : Int64 := 0
  deriving DecidableEq

namespace OutgoingMessage

/-- The most bytes that the service relays. -/
def maxSize : Nat := 2048

/-- The characters of topics: ASCII letters and digits, the low line and the hyphen. -/
def isTopicChar (c : Char) : Bool := c.isAlphanum || c == '_' || c == '-'

/-- A topic has 1 to 36 characters. -/
def isTopic (topic : String) : Bool :=
  let cs := topic.toList
  1 ≤ cs.length && cs.length ≤ 36 && cs.all isTopicChar

/-- The lifetime as the service takes it, or the first thing wrong with the message. -/
def validate (m : OutgoingMessage) : Except Undelivered UInt32 :=
  if maxSize < m.data.length then .error .invalidSize
  else if !isTopic m.topic then .error .invalidTopic
  else if m.lifetimeMs.toInt < 0 ∨ 0x100000000 ≤ m.lifetimeMs.toInt then .error .invalidLifetime
  else .ok (UInt32.ofNat m.lifetimeMs.toInt.toNat)

/-- The report that the message was not relayed. -/
def failed (m : OutgoingMessage) (reason : Undelivered) : FailedMessage :=
  { topic := m.topic, data := m.data, reason }

/-- The message as it goes out. -/
def payload (m : OutgoingMessage) (lifetimeMs : UInt32) : DataMessagePayload :=
  { topic := some m.topic, data := some m.data, lifetimeMs := some lifetimeMs }

end OutgoingMessage

namespace Wire.DataMessagePayload

/-- Whether the service sent one of our own messages back. -/
def isThrottled (p : DataMessagePayload) : Bool := p.ingestTimeNs.getD 0 == 0

def failed (p : DataMessagePayload) : FailedMessage :=
  { topic := p.topic.getD "", data := p.data.getD [], reason := .throttled }

/-- The message of another attendee. -/
def received (p : DataMessagePayload) : ReceivedMessage :=
  { timestampMs := p.ingestTimeNs.getD 0 / 1000000
    topic := p.topic.getD ""
    data := p.data.getD []
    sender :=
      { attendeeId := p.senderAttendeeId.getD ""
        externalUserId := p.senderExternalUserId.getD "" } }

end Wire.DataMessagePayload

/-- The messages of others, and our own that were sent back. -/
def splitMessages (f : DataMessageFrame) : List ReceivedMessage × List FailedMessage :=
  let (back, others) := f.messages.partition (·.isThrottled)
  (others.map (·.received), back.map (·.failed))

end Parley
