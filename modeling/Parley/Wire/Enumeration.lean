/-!
# `Parley/Wire/Enumeration.lean` — the enumerations of the signaling protocol

Each value has a number on the wire and a name in the protocol. A number or a name that is not
listed stands for no value.
-/

set_option autoImplicit false

namespace Parley.Wire

inductive FrameKind where
  | join
  | joinAck
  | subscribe
  | subscribeAck
  | index
  | pause
  | resume
  | leave
  | leaveAck
  | bitrates
  | audioControl
  | audioMetadata
  | audioStreamIdInfo
  | pingPong
  | audioStatus
  | clientMetric
  | dataMessage
  deriving DecidableEq

namespace FrameKind

def all : List FrameKind := [
  .join, .joinAck, .subscribe, .subscribeAck, .index, .pause, .resume, .leave, .leaveAck,
  .bitrates, .audioControl, .audioMetadata, .audioStreamIdInfo, .pingPong, .audioStatus,
  .clientMetric, .dataMessage]

def number : FrameKind → Int32
  | .join => 1
  | .joinAck => 2
  | .subscribe => 3
  | .subscribeAck => 4
  | .index => 5
  | .pause => 7
  | .resume => 8
  | .leave => 9
  | .leaveAck => 10
  | .bitrates => 13
  | .audioControl => 16
  | .audioMetadata => 17
  | .audioStreamIdInfo => 18
  | .pingPong => 19
  | .audioStatus => 20
  | .clientMetric => 21
  | .dataMessage => 22

def name : FrameKind → String
  | .join => "JOIN"
  | .joinAck => "JOIN_ACK"
  | .subscribe => "SUBSCRIBE"
  | .subscribeAck => "SUBSCRIBE_ACK"
  | .index => "INDEX"
  | .pause => "PAUSE"
  | .resume => "RESUME"
  | .leave => "LEAVE"
  | .leaveAck => "LEAVE_ACK"
  | .bitrates => "BITRATES"
  | .audioControl => "AUDIO_CONTROL"
  | .audioMetadata => "AUDIO_METADATA"
  | .audioStreamIdInfo => "AUDIO_STREAM_ID_INFO"
  | .pingPong => "PING_PONG"
  | .audioStatus => "AUDIO_STATUS"
  | .clientMetric => "CLIENT_METRIC"
  | .dataMessage => "DATA_MESSAGE"

def ofNumber? (n : Int32) : Option FrameKind := all.find? (·.number == n)

theorem ofNumber?_number (k : FrameKind) : ofNumber? k.number = some k := by
  cases k <;> rfl

end FrameKind

/-- What a client can ask for when it joins. -/
inductive JoinFlag where
  | sendBitrates
  | hasStreamUpdate
  | useSendSideBwe
  | completeVideoSourcesList
  | excludeSelfContentInIndex
  deriving DecidableEq

namespace JoinFlag

def all : List JoinFlag := [
  .sendBitrates, .hasStreamUpdate, .useSendSideBwe, .completeVideoSourcesList,
  .excludeSelfContentInIndex]

def number : JoinFlag → Int32
  | .sendBitrates => 1
  | .hasStreamUpdate => 2
  | .useSendSideBwe => 8
  | .completeVideoSourcesList => 16
  | .excludeSelfContentInIndex => 32

def name : JoinFlag → String
  | .sendBitrates => "SEND_BITRATES"
  | .hasStreamUpdate => "HAS_STREAM_UPDATE"
  | .useSendSideBwe => "USE_SEND_SIDE_BWE"
  | .completeVideoSourcesList => "COMPLETE_VIDEO_SOURCES_LIST"
  | .excludeSelfContentInIndex => "EXCLUDE_SELF_CONTENT_IN_INDEX"

def ofNumber? (n : Int32) : Option JoinFlag := all.find? (·.number == n)

end JoinFlag

/-- Which way the streams of a subscription flow. -/
inductive StreamServiceType where
  | rx
  | tx
  | duplex
  deriving DecidableEq

namespace StreamServiceType

def all : List StreamServiceType := [
  .rx, .tx, .duplex]

def number : StreamServiceType → Int32
  | .rx => 1
  | .tx => 2
  | .duplex => 3

def name : StreamServiceType → String
  | .rx => "RX"
  | .tx => "TX"
  | .duplex => "DUPLEX"

def ofNumber? (n : Int32) : Option StreamServiceType := all.find? (·.number == n)

end StreamServiceType

/-- What a stream carries. -/
inductive StreamMediaType where
  | audio
  | video
  deriving DecidableEq

namespace StreamMediaType

def all : List StreamMediaType := [
  .audio, .video]

def number : StreamMediaType → Int32
  | .audio => 1
  | .video => 2

def name : StreamMediaType → String
  | .audio => "AUDIO"
  | .video => "VIDEO"

def ofNumber? (n : Int32) : Option StreamMediaType := all.find? (·.number == n)

end StreamMediaType

/-- The two sides of a sign of life. -/
inductive PingPongKind where
  | ping
  | pong
  deriving DecidableEq

namespace PingPongKind

def all : List PingPongKind := [
  .ping, .pong]

def number : PingPongKind → Int32
  | .ping => 1
  | .pong => 2

def name : PingPongKind → String
  | .ping => "PING"
  | .pong => "PONG"

def ofNumber? (n : Int32) : Option PingPongKind := all.find? (·.number == n)

theorem ofNumber?_number (k : PingPongKind) : ofNumber? k.number = some k := by
  cases k <;> rfl

end PingPongKind

/-- All enumerations by name, each with the names and numbers of its members. -/
def enumerations : List (String × List (String × Int32)) :=
  [("SignalFrame.Type", FrameKind.all.map fun k => (k.name, k.number)),
    ("JoinFlags", JoinFlag.all.map fun k => (k.name, k.number)),
    ("StreamServiceType", StreamServiceType.all.map fun k => (k.name, k.number)),
    ("StreamMediaType", StreamMediaType.all.map fun k => (k.name, k.number)),
    ("PingPongType", PingPongKind.all.map fun k => (k.name, k.number))]

end Parley.Wire
