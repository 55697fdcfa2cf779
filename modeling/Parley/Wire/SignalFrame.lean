import Parley.Wire.Schema

/-!
# `Parley/Wire/SignalFrame.lean` — the messages between client and service

Each message type is a structure and beside it the schema that it travels by. A field that may be
left out is an option; a required one has a default, which holds where a message leaves it out all
the same. Enumerations keep their numbers, so that values of later revisions survive.
-/

set_option autoImplicit false

namespace Parley.Wire

/-- What a client says about itself. -/
structure ClientDetails where
  appVersionName : Option String := none
  appVersionCode : Option String := none
  deviceModel : Option String := none
  deviceMake : Option String := none
  platformName : Option String := none
  platformVersion : Option String := none
  clientSource : Option String := none
  chimeSdkVersion : Option String := none
  deriving DecidableEq

def ClientDetails.schema : Schema ClientDetails := [
  .optional 1 "app_version_name" .text (·.appVersionName) fun m v => { m with appVersionName := v },
  .optional 2 "app_version_code" .text (·.appVersionCode) fun m v => { m with appVersionCode := v },
  .optional 3 "device_model" .text (·.deviceModel) fun m v => { m with deviceModel := v },
  .optional 4 "device_make" .text (·.deviceMake) fun m v => { m with deviceMake := v },
  .optional 5 "platform_name" .text (·.platformName) fun m v => { m with platformName := v },
  .optional 6 "platform_version" .text (·.platformVersion)
    fun m v => { m with platformVersion := v },
  .optional 7 "client_source" .text (·.clientSource) fun m v => { m with clientSource := v },
  .optional 8 "chime_sdk_version" .text (·.chimeSdkVersion)
    fun m v => { m with chimeSdkVersion := v }]

structure JoinFrame where
  protocolVersion : Option UInt32 := none
  maxNumOfVideos : Option UInt32 := none
  flags : Option UInt32 := none
  clientDetails : Option ClientDetails := none
  deriving DecidableEq

def JoinFrame.schema : Schema JoinFrame := [
  .optional 1 "protocol_version" .uint32 (·.protocolVersion)
    fun m v => { m with protocolVersion := v },
  .optional 2 "max_num_of_videos" .uint32 (·.maxNumOfVideos)
    fun m v => { m with maxNumOfVideos := v },
  .optional 3 "flags" .uint32 (·.flags) fun m v => { m with flags := v },
  .optional 4 "client_details" (.message {} ClientDetails.schema) (·.clientDetails)
    fun m v => { m with clientDetails := v }]

/-- What a relay is used with, and for how many seconds. -/
structure TurnCredentials where
  username : Option String := none
  password : Option String := none
  ttl : Option UInt32 := none
  uris : List String := []
  deriving DecidableEq

def TurnCredentials.schema : Schema TurnCredentials := [
  .optional 1 "username" .text (·.username) fun m v => { m with username := v },
  .optional 2 "password" .text (·.password) fun m v => { m with password := v },
  .optional 3 "ttl" .uint32 (·.ttl) fun m v => { m with ttl := v },
  .repeated 4 "uris" .text (·.uris) fun m v => { m with uris := v }]

structure JoinAckFrame where
  turnCredentials : Option TurnCredentials := none
  deriving DecidableEq

def JoinAckFrame.schema : Schema JoinAckFrame := [
  .optional 1 "turn_credentials" (.message {} TurnCredentials.schema) (·.turnCredentials)
    fun m v => { m with turnCredentials := v }]

structure LeaveFrame where
  deriving DecidableEq

def LeaveFrame.schema : Schema LeaveFrame := []

structure LeaveAckFrame where
  deriving DecidableEq

def LeaveAckFrame.schema : Schema LeaveAckFrame := []

/-- One stream that a client sends or the service offers. -/
structure StreamDescriptor where
  streamId : Option UInt32 := none
  framerate : Option UInt32 := none
  maxBitrateKbps : Option UInt32 := none
  trackLabel : Option String := none
  groupId : Option UInt32 := none
  avgBitrateBps : Option UInt32 := none
  profileUuid : Option String := none
  mediaType : Option Int32 := none
  externalUserId : Option String := none
  deriving DecidableEq

def StreamDescriptor.schema : Schema StreamDescriptor := [
  .optional 1 "stream_id" .uint32 (·.streamId) fun m v => { m with streamId := v },
  .optional 2 "framerate" .uint32 (·.framerate) fun m v => { m with framerate := v },
  .optional 3 "max_bitrate_kbps" .uint32 (·.maxBitrateKbps)
    fun m v => { m with maxBitrateKbps := v },
  .optional 4 "track_label" .text (·.trackLabel) fun m v => { m with trackLabel := v },
  .optional 6 "group_id" .uint32 (·.groupId) fun m v => { m with groupId := v },
  .optional 7 "avg_bitrate_bps" .uint32 (·.avgBitrateBps) fun m v => { m with avgBitrateBps := v },
  .optional 8 "profile_uuid" .text (·.profileUuid) fun m v => { m with profileUuid := v },
  .optional 9 "media_type" .enumeration (·.mediaType) fun m v => { m with mediaType := v },
  .optional 10 "external_user_id" .text (·.externalUserId)
    fun m v => { m with externalUserId := v }]

/-- Says which streams a client sends and wants. -/
structure SubscribeFrame where
  duplex : Option Int32 := none
  sendStreams : List StreamDescriptor := []
  receiveStreamIds : List UInt32 := []
  sdpOffer : Option String := none
  xrpHost : Option String := none
  xrpCheckin : Option Bool := none
  xrpMuted : Option Bool := none
  deriving DecidableEq

def SubscribeFrame.schema : Schema SubscribeFrame := [
  .optional 1 "duplex" .enumeration (·.duplex) fun m v => { m with duplex := v },
  .repeated 2 "send_streams" (.message {} StreamDescriptor.schema) (·.sendStreams)
    fun m v => { m with sendStreams := v },
  .numbers 3 "receive_stream_ids" (·.receiveStreamIds) fun m v => { m with receiveStreamIds := v },
  .optional 4 "sdp_offer" .text (·.sdpOffer) fun m v => { m with sdpOffer := v },
  .optional 5 "xrp_host" .text (·.xrpHost) fun m v => { m with xrpHost := v },
  .optional 6 "xrp_checkin" .bool (·.xrpCheckin) fun m v => { m with xrpCheckin := v },
  .optional 7 "xrp_muted" .bool (·.xrpMuted) fun m v => { m with xrpMuted := v }]

/-- The identifiers that the service gives to a stream. -/
structure StreamAllocation where
  trackLabel : Option String := none
  streamId : Option UInt32 := none
  groupId : Option UInt32 := none
  deriving DecidableEq

def StreamAllocation.schema : Schema StreamAllocation := [
  .optional 1 "track_label" .text (·.trackLabel) fun m v => { m with trackLabel := v },
  .optional 2 "stream_id" .uint32 (·.streamId) fun m v => { m with streamId := v },
  .optional 3 "group_id" .uint32 (·.groupId) fun m v => { m with groupId := v }]

/-- The source that a stream is received as. -/
structure TrackMapping where
  streamId : Option UInt32 := none
  ssrc : Option UInt32 := none
  trackLabel : Option String := none
  deriving DecidableEq

def TrackMapping.schema : Schema TrackMapping := [
  .optional 1 "stream_id" .uint32 (·.streamId) fun m v => { m with streamId := v },
  .optional 2 "ssrc" .uint32 (·.ssrc) fun m v => { m with ssrc := v },
  .optional 3 "track_label" .text (·.trackLabel) fun m v => { m with trackLabel := v }]

structure SubscribeAckFrame where
  duplex : Option Int32 := none
  allocations : List StreamAllocation := []
  sdpAnswer : Option String := none
  tracks : List TrackMapping := []
  deriving DecidableEq

def SubscribeAckFrame.schema : Schema SubscribeAckFrame := [
  .optional 1 "duplex" .enumeration (·.duplex) fun m v => { m with duplex := v },
  .repeated 2 "allocations" (.message {} StreamAllocation.schema) (·.allocations)
    fun m v => { m with allocations := v },
  .optional 3 "sdp_answer" .text (·.sdpAnswer) fun m v => { m with sdpAnswer := v },
  .repeated 4 "tracks" (.message {} TrackMapping.schema) (·.tracks)
    fun m v => { m with tracks := v }]

structure IndexFrame where
  atCapacity : Option Bool := none
  sources : List StreamDescriptor := []
  pausedAtSourceIds : List UInt32 := []
  numParticipants : Option UInt32 := none
  deriving DecidableEq

def IndexFrame.schema : Schema IndexFrame := [
  .optional 1 "at_capacity" .bool (·.atCapacity) fun m v => { m with atCapacity := v },
  .repeated 2 "sources" (.message {} StreamDescriptor.schema) (·.sources)
    fun m v => { m with sources := v },
  .numbers 3 "paused_at_source_ids" (·.pausedAtSourceIds)
    fun m v => { m with pausedAtSourceIds := v },
  .optional 4 "num_participants" .uint32 (·.numParticipants)
    fun m v => { m with numParticipants := v }]

structure AudioControlFrame where
  muted : Option Bool := none
  deriving DecidableEq

def AudioControlFrame.schema : Schema AudioControlFrame := [
  .optional 1 "muted" .bool (·.muted) fun m v => { m with muted := v }]

structure AudioAttendeeState where
  audioStreamId : Option UInt32 := none
  volume : Option UInt32 := none
  muted : Option Bool := none
  signalStrength : Option UInt32 := none
  deriving DecidableEq

def AudioAttendeeState.schema : Schema AudioAttendeeState := [
  .optional 1 "audio_stream_id" .uint32 (·.audioStreamId) fun m v => { m with audioStreamId := v },
  .optional 2 "volume" .uint32 (·.volume) fun m v => { m with volume := v },
  .optional 3 "muted" .bool (·.muted) fun m v => { m with muted := v },
  .optional 4 "signal_strength" .uint32 (·.signalStrength)
    fun m v => { m with signalStrength := v }]

structure AudioMetadataFrame where
  attendeeStates : List AudioAttendeeState := []
  deriving DecidableEq

def AudioMetadataFrame.schema : Schema AudioMetadataFrame := [
  .repeated 1 "attendee_states" (.message {} AudioAttendeeState.schema) (·.attendeeStates)
    fun m v => { m with attendeeStates := v }]

structure AudioStreamIdInfo where
  audioStreamId : Option UInt32 := none
  attendeeId : Option String := none
  muted : Option Bool := none
  externalUserId : Option String := none
  dropped : Option Bool := none
  deriving DecidableEq

def AudioStreamIdInfo.schema : Schema AudioStreamIdInfo := [
  .optional 1 "audio_stream_id" .uint32 (·.audioStreamId) fun m v => { m with audioStreamId := v },
  .optional 2 "attendee_id" .text (·.attendeeId) fun m v => { m with attendeeId := v },
  .optional 3 "muted" .bool (·.muted) fun m v => { m with muted := v },
  .optional 4 "external_user_id" .text (·.externalUserId) fun m v => { m with externalUserId := v },
  .optional 5 "dropped" .bool (·.dropped) fun m v => { m with dropped := v }]

structure AudioStreamIdInfoFrame where
  streams : List AudioStreamIdInfo := []
  deriving DecidableEq

def AudioStreamIdInfoFrame.schema : Schema AudioStreamIdInfoFrame := [
  .repeated 1 "streams" (.message {} AudioStreamIdInfo.schema) (·.streams)
    fun m v => { m with streams := v }]

/-- Asks for a sign of life, or gives one. -/
structure PingPongFrame where
  kind : Int32 := 1
  pingId : UInt32 := 0
  deriving DecidableEq

def PingPongFrame.schema : Schema PingPongFrame := [
  .required 1 "type" .enumeration (·.kind) fun m v => { m with kind := v },
  .required 2 "ping_id" .uint32 (·.pingId) fun m v => { m with pingId := v }]

/-- Tells how the audio connection fares. -/
structure AudioStatusFrame where
  audioStatus : Option UInt32 := none
  deriving DecidableEq

def AudioStatusFrame.schema : Schema AudioStatusFrame := [
  .optional 1 "audio_status" .uint32 (·.audioStatus) fun m v => { m with audioStatus := v }]

structure DataMessagePayload where
  topic : Option String := none
  data : Option Octets := none
  lifetimeMs : Option UInt32 := none
  senderAttendeeId : Option String := none
  ingestTimeNs : Option Int64 := none
  senderExternalUserId : Option String := none
  deriving DecidableEq

def DataMessagePayload.schema : Schema DataMessagePayload := [
  .optional 1 "topic" .text (·.topic) fun m v => { m with topic := v },
  .optional 2 "data" .octets (·.data) fun m v => { m with data := v },
  .optional 3 "lifetime_ms" .uint32 (·.lifetimeMs) fun m v => { m with lifetimeMs := v },
  .optional 4 "sender_attendee_id" .text (·.senderAttendeeId)
    fun m v => { m with senderAttendeeId := v },
  .optional 5 "ingest_time_ns" .int64 (·.ingestTimeNs) fun m v => { m with ingestTimeNs := v },
  .optional 6 "sender_external_user_id" .text (·.senderExternalUserId)
    fun m v => { m with senderExternalUserId := v }]

structure DataMessageFrame where
  messages : List DataMessagePayload := []
  deriving DecidableEq

def DataMessageFrame.schema : Schema DataMessageFrame := [
  .repeated 1 "messages" (.message {} DataMessagePayload.schema) (·.messages)
    fun m v => { m with messages := v }]

/-- One message between client and service: a time, a kind, and a body for most kinds. -/
structure SignalFrame where
  timestampMs : UInt64 := 0
  kind : Int32 := 1
  join : Option JoinFrame := none
  joinAck : Option JoinAckFrame := none
  subscribe : Option SubscribeFrame := none
  subscribeAck : Option SubscribeAckFrame := none
  index : Option IndexFrame := none
  leave : Option LeaveFrame := none
  leaveAck : Option LeaveAckFrame := none
  audioControl : Option AudioControlFrame := none
  audioMetadata : Option AudioMetadataFrame := none
  audioStreamIdInfo : Option AudioStreamIdInfoFrame := none
  pingPong : Option PingPongFrame := none
  audioStatus : Option AudioStatusFrame := none
  dataMessage : Option DataMessageFrame := none
  deriving DecidableEq

def SignalFrame.schema : Schema SignalFrame := [
  .required 1 "timestamp_ms" .uint64 (·.timestampMs) fun m v => { m with timestampMs := v },
  .required 2 "type" .enumeration (·.kind) fun m v => { m with kind := v },
  .optional 3 "join" (.message {} JoinFrame.schema) (·.join) fun m v => { m with join := v },
  .optional 4 "joinack" (.message {} JoinAckFrame.schema) (·.joinAck)
    fun m v => { m with joinAck := v },
  .optional 5 "sub" (.message {} SubscribeFrame.schema) (·.subscribe)
    fun m v => { m with subscribe := v },
  .optional 6 "suback" (.message {} SubscribeAckFrame.schema) (·.subscribeAck)
    fun m v => { m with subscribeAck := v },
  .optional 7 "index" (.message {} IndexFrame.schema) (·.index) fun m v => { m with index := v },
  .optional 11 "leave" (.message {} LeaveFrame.schema) (·.leave) fun m v => { m with leave := v },
  .optional 12 "leave_ack" (.message {} LeaveAckFrame.schema) (·.leaveAck)
    fun m v => { m with leaveAck := v },
  .optional 17 "audio_control" (.message {} AudioControlFrame.schema) (·.audioControl)
    fun m v => { m with audioControl := v },
  .optional 18 "audio_metadata" (.message {} AudioMetadataFrame.schema) (·.audioMetadata)
    fun m v => { m with audioMetadata := v },
  .optional 19 "audio_stream_id_info" (.message {} AudioStreamIdInfoFrame.schema) (·.audioStreamIdInfo)
    fun m v => { m with audioStreamIdInfo := v },
  .optional 20 "ping_pong" (.message {} PingPongFrame.schema) (·.pingPong)
    fun m v => { m with pingPong := v },
  .optional 21 "audio_status" (.message {} AudioStatusFrame.schema) (·.audioStatus)
    fun m v => { m with audioStatus := v },
  .optional 23 "data_message" (.message {} DataMessageFrame.schema) (·.dataMessage)
    fun m v => { m with dataMessage := v }]

end Parley.Wire
