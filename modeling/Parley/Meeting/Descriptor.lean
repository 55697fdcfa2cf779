import Parley.Meeting.LogLevel
import Parley.Meeting.SignalingUrl
import Parley.Text.Quoted

/-!
# `Parley/Meeting/Descriptor.lean` — everything needed to join one meeting

A descriptor names the meeting, the local attendee and the two hosts. It is made once, from text
that a launcher hands over, and the making refuses what could never join: a blank identifier, a
blank token, or an address that is no signaling URL, in that order.

The join token is a secret. It leaves a descriptor through `joinToken` alone; the description of a
descriptor shows `<redacted>` in its place.
-/

set_option autoImplicit false

namespace Parley

inductive DescriptorError where
  | missingField (name : String)
  | invalidSignalingUrl (url : String)
  | unknownLogLevel (text : String)
  deriving DecidableEq

namespace DescriptorError

def message : DescriptorError → String
  | .missingField name => "missing required field: " ++ name
  | .invalidSignalingUrl url =>
    "signaling url must be ws:// or wss:// with a host, got " ++ Text.quote url
  | .unknownLogLevel text => "unknown log level: " ++ text

end DescriptorError

/-- Reads a level of reporting. The complaint shows the normalized text. -/
def LogLevel.read (text : String) : Except DescriptorError LogLevel :=
  match LogLevel.ofName? (LogLevel.normalize text) with
  | some level => .ok level
  | none => .error (.unknownLogLevel (LogLevel.normalize text))

def SignalingUrl.read (text : String) : Except DescriptorError SignalingUrl :=
  match SignalingUrl.ofString? text with
  | some url => .ok url
  | none => .error (.invalidSignalingUrl text)

/-- The local attendee: who it is, and the secret that lets it in. -/
structure Credentials where
  attendeeId : String
  externalUserId : String
  joinToken : String
  deriving DecidableEq

/-- What one meeting is joined with. -/
structure Descriptor where
  meetingId : String
  externalMeetingId : String
  credentials : Credentials
  audioHostUrl : String
  signalingUrl : SignalingUrl
  logLevel : LogLevel := .standard
  /-- The file whose audio is sent, if any is. -/
  audioSource : Option String := none
  deriving DecidableEq

namespace Descriptor

/-- Makes a descriptor, or says what is wrong with its parts. -/
def make (meetingId externalMeetingId : String) (credentials : Credentials)
    (audioHostUrl signalingUrl : String) : Except DescriptorError Descriptor := do
  if Text.allBlank meetingId then throw (.missingField "meeting_id")
  if Text.allBlank credentials.attendeeId then throw (.missingField "attendee_id")
  if Text.allBlank credentials.joinToken then throw (.missingField "join_token")
  let url ← SignalingUrl.read signalingUrl
  return { meetingId, externalMeetingId, credentials, audioHostUrl, signalingUrl := url }

/-- The same meeting with another level of reporting. -/
def withLogLevel (d : Descriptor) (level : LogLevel) : Descriptor := { d with logLevel := level }

/-- The same meeting with a file to send; an empty path means none. -/
def withAudioSource (d : Descriptor) (path : String) : Descriptor :=
  { d with audioSource := if path.isEmpty then none else some path }

def attendeeId (d : Descriptor) : String := d.credentials.attendeeId

def externalUserId (d : Descriptor) : String := d.credentials.externalUserId

def joinToken (d : Descriptor) : String := d.credentials.joinToken

/-- The part of a text after its first number sign; the whole text if it has none. -/
def afterNumberSign (cs : List Char) : List Char :=
  match cs.dropWhile (· != '#') with
  | [] => cs
  | _ :: rest => rest

/-- The name that the attendee is shown by. -/
def attendeeName (d : Descriptor) : String :=
  String.ofList (afterNumberSign d.externalUserId.toList)

/-- The ending of identities that share content. -/
def contentSuffix : String := "#content"

/-- The descriptor of the attendee that shares content in the same meeting. -/
def contentShare (d : Descriptor) : Descriptor :=
  { d with
    credentials := { d.credentials with
      attendeeId := d.attendeeId ++ contentSuffix
      joinToken := d.joinToken ++ contentSuffix }
    audioSource := none }

/-- The text shown in place of a secret. -/
def redacted : String := "\"<redacted>\""

/-- A full description of a descriptor, its secret apart. -/
def description (d : Descriptor) : String :=
  let source := match d.audioSource with
    | none => "None"
    | some path => "Some(" ++ Text.quote path ++ ")"
  "SessionDescriptor \x7b meeting_id: " ++ Text.quote d.meetingId
    ++ ", external_meeting_id: " ++ Text.quote d.externalMeetingId
    ++ ", credentials: MeetingSessionCredentials \x7b attendee_id: "
    ++ Text.quote d.credentials.attendeeId
    ++ ", external_user_id: " ++ Text.quote d.credentials.externalUserId
    ++ ", join_token: " ++ redacted
    ++ " \x7d, urls: MeetingSessionUrls \x7b audio_host_url: " ++ Text.quote d.audioHostUrl
    ++ ", signaling_url: " ++ Text.quote d.signalingUrl.text
    ++ " \x7d, log_level: " ++ d.logLevel.label
    ++ ", audio_source: " ++ source ++ " \x7d"

end Descriptor

end Parley
