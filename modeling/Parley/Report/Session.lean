import Parley.Meeting.Descriptor
import Parley.Report.Value
import Parley.Signaling.Event

/-!
# `Parley/Report/Session.lean` — what is reported of a session

Descriptors, errors and events as records. A record of an error begins with the kind of the error,
and has its message where the client has one of its own.
-/

set_option autoImplicit false

namespace Parley.Report

open Parley.Wire

def error (kind : String) (message : Option String) (more : List (String × Value)) : Value :=
  .record ([("error", .text kind)] ++ message.toList.map (fun m => ("message", .text m)) ++ more)

def ofDescriptorError (e : DescriptorError) : Value :=
  let kind := match e with
    | .missingField _ => "MissingField"
    | .invalidSignalingUrl _ => "InvalidSignalingUrl"
    | .unknownLogLevel _ => "InvalidLogLevel"
  error kind (some e.message) []

def ofProtocolError (e : ProtocolError) : Value :=
  let (kind, message) := match e with
    | .tooShort _ => ("TooShort", some e.message)
    | .unsupportedVersion _ => ("UnsupportedVersion", some e.message)
    | .undecodable => ("Decode", none)
    | .missingField _ => ("MissingField", some e.message)
    | .rtp _ => ("Rtp", some e.message)
  error kind message [("fatal", .flag e.isFatal)]

def ofRefusal (r : Refusal) : Value :=
  let (kind, status) := match r with
    | .authenticationRejected status => ("AuthenticationRejected", Value.word status)
    | .meetingEnded => ("MeetingEnded", .missing)
    | .atCapacity => ("AtCapacity", .missing)
    | .other status => ("Other", Value.word status)
  .record [("kind", .text kind), ("status", status), ("text", .text r.message)]

def connectErrorKind : ConnectError → String
  | .invalidUrl _ => "InvalidUrl"
  | .timeout _ => "Timeout"
  | .handshake _ => "Handshake"
  | .closed => "Closed"
  | .retriesExhausted _ => "RetriesExhausted"

def sendErrorKind : SendError → String
  | .closed => "Closed"
  | .transport _ => "Transport"

def ofConnectError (e : ConnectError) : Value :=
  let attempts := match e with
    | .retriesExhausted attempts => [("attempts", Value.word attempts)]
    | _ => [("text", .text e.message)]
  .record (("kind", .text (connectErrorKind e)) :: attempts)

def ofFailure (r : FailureReason) : Value :=
  let (kind, detail) := match r with
    | .auth cause => ("Auth", ofRefusal cause)
    | .protocol cause => ("Protocol", ofProtocolError cause)
    | .connect cause => ("Connect", ofConnectError cause)
  .record [("kind", .text kind), ("detail", detail), ("text", .text r.message)]

def ofDescriptor (d : Descriptor) : List (String × Value) :=
  [("meeting_id", .text d.meetingId),
    ("external_meeting_id", .text d.externalMeetingId),
    ("attendee_id", .text d.attendeeId),
    ("external_user_id", .text d.externalUserId),
    ("join_token", .text d.joinToken),
    ("signaling_url", .text d.signalingUrl.text),
    ("audio_host_url", .text d.audioHostUrl),
    ("log_level", .text d.logLevel.name),
    ("audio_source", .ofOption .text d.audioSource),
    ("attendee_name", .text d.attendeeName)]

def ofAttendee (a : Attendee) : Value := .list [.text a.attendeeId, .text a.externalUserId]

def ofTurn (t : TurnAccess) : Value :=
  .record [("username", .text t.username), ("password", .text t.password), ("ttl", .word t.ttl),
    ("uris", .ofList .text t.uris)]

def ofVideoSource (s : VideoSource) : Value :=
  .record [("stream_id", .word s.streamId), ("group_id", .word s.groupId),
    ("max_bitrate_kbps", .word s.maxBitrateKbps), ("attendee", ofAttendee s.attendee)]

def ofUpdate (u : LevelUpdate) : Value := .list [ofAttendee u.attendee, .level u.level]

def undelivered : Undelivered → String
  | .throttled => "Throttled"
  | .invalidTopic => "InvalidTopic"
  | .invalidSize => "InvalidDataMessageSize"
  | .invalidLifetime => "InvalidLifetimeMs"

def ofReceived (m : ReceivedMessage) : Value :=
  .record [("timestamp_ms", .wide m.timestampMs.toInt), ("topic", .text m.topic),
    ("data", .octets m.data), ("sender", ofAttendee m.sender)]

def ofFailed (m : FailedMessage) : Value :=
  .record [("topic", .text m.topic), ("data", .octets m.data),
    ("reason", .text (undelivered m.reason))]

/-- Sources that come in no particular order, in that of their attendees' identifiers. -/
def byAttendee (sources : List VideoSource) : List VideoSource :=
  sources.mergeSort fun a b => decide (a.attendee.attendeeId ≤ b.attendee.attendeeId)

/-- The name of an event and what else is reported of it. -/
def ofEventParts : Event → String × List (String × Value)
  | .joined codec turn =>
    ("Joined", [("codec", .text codec.encodingName), ("turn", .ofOption ofTurn turn)])
  | .started turn sources =>
    ("Started", [("turn", .ofOption ofTurn turn), ("sources", .ofList ofVideoSource sources)])
  | .mediaRenegotiated codec answer =>
    ("MediaRenegotiated", [("codec", .text codec.encodingName), ("sdp_answer", .text answer)])
  | .videoSourcesAvailable sources =>
    ("RemoteVideoSourcesAvailable", [("sources", .ofList ofVideoSource sources)])
  | .videoSourcesUnavailable sources =>
    ("RemoteVideoSourcesUnavailable", [("sources", .ofList ofVideoSource (byAttendee sources))])
  | .attendeeJoined a => ("AttendeeJoined", [("attendee", ofAttendee a)])
  | .attendeeLeft a => ("AttendeeLeft", [("attendee", ofAttendee a)])
  | .attendeeDropped a => ("AttendeeDropped", [("attendee", ofAttendee a)])
  | .attendeeMuted a => ("AttendeeMuted", [("attendee", ofAttendee a)])
  | .attendeeUnmuted a => ("AttendeeUnmuted", [("attendee", ofAttendee a)])
  | .volumes updates => ("VolumeUpdates", [("updates", .ofList ofUpdate updates)])
  | .signalStrengths updates => ("SignalStrengthChanges", [("updates", .ofList ofUpdate updates)])
  | .messagesReceived messages =>
    ("DataMessagesReceived", [("messages", .ofList ofReceived messages)])
  | .messagesFailed messages =>
    ("DataMessagesFailedToSend", [("errors", .ofList ofFailed messages)])
  | .audioStatus status => ("AudioStatus", [("status", .word status)])
  | .leaveAcknowledged => ("LeaveAcknowledged", [])
  | .closed => ("Closed", [])
  | .failed reason => ("Failed", [("reason", ofFailure reason)])

def ofEvent (e : Event) : Value :=
  let (name, fields) := ofEventParts e
  .record (("event", .text name) :: fields)

end Parley.Report
