import Parley.Proofs.Wire.RoundTrip
import Parley.Wire.Envelope

/-!
# `Parley/Proofs/Wire/Frames.lean` — every signal frame survives its envelope

The schema of each message type is faithful, which is one step for each of its fields, in their
order. A message type that holds others rests on theirs and needs a level more. So a frame that is
put into its envelope comes out as it was, but for its time.
-/

set_option autoImplicit false

namespace Parley.Wire

open Format Schema

variable {depth : Nat}

theorem ClientDetails.faithful : ClientDetails.schema.Faithful depth {} := by
  refine ⟨by decide, fun m => ?_⟩
  refine .single overwrites_text rfl rfl ?_
  refine .single overwrites_text rfl rfl ?_
  refine .single overwrites_text rfl rfl ?_
  refine .single overwrites_text rfl rfl ?_
  refine .single overwrites_text rfl rfl ?_
  refine .single overwrites_text rfl rfl ?_
  refine .single overwrites_text rfl rfl ?_
  refine .single overwrites_text rfl rfl ?_
  exact .nil m

theorem JoinFrame.faithful : JoinFrame.schema.Faithful (depth + 1) {} := by
  refine ⟨by decide, fun m => ?_⟩
  refine .single overwrites_uint32 rfl rfl ?_
  refine .single overwrites_uint32 rfl rfl ?_
  refine .single overwrites_uint32 rfl rfl ?_
  refine .optional ClientDetails.faithful.message rfl rfl ?_
  exact .nil m

theorem TurnCredentials.faithful : TurnCredentials.schema.Faithful depth {} := by
  refine ⟨by decide, fun m => ?_⟩
  refine .single overwrites_text rfl rfl ?_
  refine .single overwrites_text rfl rfl ?_
  refine .single overwrites_uint32 rfl rfl ?_
  refine .repeated (overwrites_text.faithful _) rfl ?_
  exact .nil m

theorem JoinAckFrame.faithful : JoinAckFrame.schema.Faithful (depth + 1) {} := by
  refine ⟨by decide, fun m => ?_⟩
  refine .optional TurnCredentials.faithful.message rfl rfl ?_
  exact .nil m

theorem LeaveFrame.faithful : LeaveFrame.schema.Faithful depth {} := by
  refine ⟨by decide, fun m => ?_⟩
  exact .nil m

theorem LeaveAckFrame.faithful : LeaveAckFrame.schema.Faithful depth {} := by
  refine ⟨by decide, fun m => ?_⟩
  exact .nil m

theorem StreamDescriptor.faithful : StreamDescriptor.schema.Faithful depth {} := by
  refine ⟨by decide, fun m => ?_⟩
  refine .single overwrites_uint32 rfl rfl ?_
  refine .single overwrites_uint32 rfl rfl ?_
  refine .single overwrites_uint32 rfl rfl ?_
  refine .single overwrites_text rfl rfl ?_
  refine .single overwrites_uint32 rfl rfl ?_
  refine .single overwrites_uint32 rfl rfl ?_
  refine .single overwrites_text rfl rfl ?_
  refine .single overwrites_enumeration rfl rfl ?_
  refine .single overwrites_text rfl rfl ?_
  exact .nil m

theorem SubscribeFrame.faithful : SubscribeFrame.schema.Faithful (depth + 1) {} := by
  refine ⟨by decide, fun m => ?_⟩
  refine .single overwrites_enumeration rfl rfl ?_
  refine .repeated StreamDescriptor.faithful.message rfl ?_
  refine .numbers rfl ?_
  refine .single overwrites_text rfl rfl ?_
  refine .single overwrites_text rfl rfl ?_
  refine .single overwrites_bool rfl rfl ?_
  refine .single overwrites_bool rfl rfl ?_
  exact .nil m

theorem StreamAllocation.faithful : StreamAllocation.schema.Faithful depth {} := by
  refine ⟨by decide, fun m => ?_⟩
  refine .single overwrites_text rfl rfl ?_
  refine .single overwrites_uint32 rfl rfl ?_
  refine .single overwrites_uint32 rfl rfl ?_
  exact .nil m

theorem TrackMapping.faithful : TrackMapping.schema.Faithful depth {} := by
  refine ⟨by decide, fun m => ?_⟩
  refine .single overwrites_uint32 rfl rfl ?_
  refine .single overwrites_uint32 rfl rfl ?_
  refine .single overwrites_text rfl rfl ?_
  exact .nil m

theorem SubscribeAckFrame.faithful : SubscribeAckFrame.schema.Faithful (depth + 1) {} := by
  refine ⟨by decide, fun m => ?_⟩
  refine .single overwrites_enumeration rfl rfl ?_
  refine .repeated StreamAllocation.faithful.message rfl ?_
  refine .single overwrites_text rfl rfl ?_
  refine .repeated TrackMapping.faithful.message rfl ?_
  exact .nil m

theorem IndexFrame.faithful : IndexFrame.schema.Faithful (depth + 1) {} := by
  refine ⟨by decide, fun m => ?_⟩
  refine .single overwrites_bool rfl rfl ?_
  refine .repeated StreamDescriptor.faithful.message rfl ?_
  refine .numbers rfl ?_
  refine .single overwrites_uint32 rfl rfl ?_
  exact .nil m

theorem AudioControlFrame.faithful : AudioControlFrame.schema.Faithful depth {} := by
  refine ⟨by decide, fun m => ?_⟩
  refine .single overwrites_bool rfl rfl ?_
  exact .nil m

theorem AudioAttendeeState.faithful : AudioAttendeeState.schema.Faithful depth {} := by
  refine ⟨by decide, fun m => ?_⟩
  refine .single overwrites_uint32 rfl rfl ?_
  refine .single overwrites_uint32 rfl rfl ?_
  refine .single overwrites_bool rfl rfl ?_
  refine .single overwrites_uint32 rfl rfl ?_
  exact .nil m

theorem AudioMetadataFrame.faithful : AudioMetadataFrame.schema.Faithful (depth + 1) {} := by
  refine ⟨by decide, fun m => ?_⟩
  refine .repeated AudioAttendeeState.faithful.message rfl ?_
  exact .nil m

theorem AudioStreamIdInfo.faithful : AudioStreamIdInfo.schema.Faithful depth {} := by
  refine ⟨by decide, fun m => ?_⟩
  refine .single overwrites_uint32 rfl rfl ?_
  refine .single overwrites_text rfl rfl ?_
  refine .single overwrites_bool rfl rfl ?_
  refine .single overwrites_text rfl rfl ?_
  refine .single overwrites_bool rfl rfl ?_
  exact .nil m

theorem AudioStreamIdInfoFrame.faithful :
    AudioStreamIdInfoFrame.schema.Faithful (depth + 1) {} := by
  refine ⟨by decide, fun m => ?_⟩
  refine .repeated AudioStreamIdInfo.faithful.message rfl ?_
  exact .nil m

theorem PingPongFrame.faithful : PingPongFrame.schema.Faithful depth {} := by
  refine ⟨by decide, fun m => ?_⟩
  refine .required overwrites_enumeration ?_
  refine .required overwrites_uint32 ?_
  exact .nil m

theorem AudioStatusFrame.faithful : AudioStatusFrame.schema.Faithful depth {} := by
  refine ⟨by decide, fun m => ?_⟩
  refine .single overwrites_uint32 rfl rfl ?_
  exact .nil m

theorem DataMessagePayload.faithful : DataMessagePayload.schema.Faithful depth {} := by
  refine ⟨by decide, fun m => ?_⟩
  refine .single overwrites_text rfl rfl ?_
  refine .single overwrites_octets rfl rfl ?_
  refine .single overwrites_uint32 rfl rfl ?_
  refine .single overwrites_text rfl rfl ?_
  refine .single overwrites_int64 rfl rfl ?_
  refine .single overwrites_text rfl rfl ?_
  exact .nil m

theorem DataMessageFrame.faithful : DataMessageFrame.schema.Faithful (depth + 1) {} := by
  refine ⟨by decide, fun m => ?_⟩
  refine .repeated DataMessagePayload.faithful.message rfl ?_
  exact .nil m

theorem SignalFrame.faithful : SignalFrame.schema.Faithful (depth + 2) {} := by
  refine ⟨by decide, fun m => ?_⟩
  refine .required overwrites_uint64 ?_
  refine .required overwrites_enumeration ?_
  refine .optional JoinFrame.faithful.message rfl rfl ?_
  refine .optional JoinAckFrame.faithful.message rfl rfl ?_
  refine .optional SubscribeFrame.faithful.message rfl rfl ?_
  refine .optional SubscribeAckFrame.faithful.message rfl rfl ?_
  refine .optional IndexFrame.faithful.message rfl rfl ?_
  refine .optional LeaveFrame.faithful.message rfl rfl ?_
  refine .optional LeaveAckFrame.faithful.message rfl rfl ?_
  refine .optional AudioControlFrame.faithful.message rfl rfl ?_
  refine .optional AudioMetadataFrame.faithful.message rfl rfl ?_
  refine .optional AudioStreamIdInfoFrame.faithful.message rfl rfl ?_
  refine .optional PingPongFrame.faithful.message rfl rfl ?_
  refine .optional AudioStatusFrame.faithful.message rfl rfl ?_
  refine .optional DataMessageFrame.faithful.message rfl rfl ?_
  exact .nil m

namespace Envelope

/-- The time is always there, so no frame is written as nothing. -/
theorem encode_ne_nil (frame : SignalFrame) : SignalFrame.schema.encode frame ≠ [] := by
  have hpos : 0 < (Entry.write ⟨1, .varint frame.timestampMs⟩).length :=
    Entry.length_write_pos ⟨Nat.one_pos, by simp, trivial⟩
  have hmem : (⟨1, .varint frame.timestampMs⟩ : Entry) ∈ SignalFrame.schema.entries frame :=
    List.mem_cons_self
  intro hnil
  have hwrite : Entry.write ⟨1, .varint frame.timestampMs⟩ = [] :=
    List.flatMap_eq_nil_iff.mp hnil _ hmem
  rw [hwrite] at hpos
  exact absurd hpos (by decide)

theorem decode_encodeSignal {frame : SignalFrame} {nowMs : UInt64}
    (size : (encodeSignal frame nowMs).length < Nat.pow 2 64) :
    decode (encodeSignal frame nowMs) = .ok (.signal (stamp frame nowMs)) := by
  have hread : decodeFrame (SignalFrame.schema.encode (stamp frame nowMs)) =
      some (stamp frame nowMs) := by
    apply SignalFrame.faithful.read_encode
    exact Nat.lt_trans (Nat.lt_succ_self _) size
  obtain ⟨b, rest, hbytes⟩ := List.exists_cons_of_ne_nil (encode_ne_nil (stamp frame nowMs))
  rw [hbytes] at hread
  simp [decode, encodeSignal, hbytes, hread]

/-- **A signal frame survives its envelope.** Put into it at some time and taken out again, a frame
is the same but for the time; so one that came in an envelope, sent on with its own time, stays as
it is. -/
theorem signal_roundTrip :
    (∀ (frame : SignalFrame) (nowMs : UInt64),
      (encodeSignal frame nowMs).length < Nat.pow 2 63 →
      decode (encodeSignal frame nowMs) = .ok (.signal { frame with timestampMs := nowMs })) ∧
    (∀ (message : Octets) (frame : SignalFrame), decode message = .ok (.signal frame) →
      (encodeSignal frame frame.timestampMs).length < Nat.pow 2 63 →
      decode (encodeSignal frame frame.timestampMs) = .ok (.signal frame)) := by
  have hbound : Nat.pow 2 63 < Nat.pow 2 64 := by decide
  constructor
  · intro frame nowMs size
    exact decode_encodeSignal (Nat.lt_trans size hbound)
  · intro message frame _ size
    exact decode_encodeSignal (Nat.lt_trans size hbound)

/-- A frame of an unknown, negative kind with an empty body, a list and a text, and the same frame
read from its bytes. -/
theorem signal_roundTrip_of_unknownKind :
    let frame : SignalFrame :=
      { kind := -1, leave := some {}
        subscribe := some { receiveStreamIds := [0, 300], sdpOffer := some "é" } }
    let message := encodeSignal frame 7
    decode message = .ok (.signal { frame with timestampMs := 7 }) ∧
      decode (encodeSignal { frame with timestampMs := 7 } 7) =
        .ok (.signal { frame with timestampMs := 7 }) := by
  intro frame message
  have size : message.length < Nat.pow 2 63 := by decide +kernel
  have hdecode := signal_roundTrip.1 frame 7 size
  exact ⟨hdecode, signal_roundTrip.2 message { frame with timestampMs := 7 } hdecode size⟩

end Envelope

end Parley.Wire
