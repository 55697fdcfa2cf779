import Parley.Proofs.Signaling.Ending

/-!
# `Parley/Proofs/Signaling/Dropped.lean` — messages that are dropped leave no trace

Of a message that is too short, that cannot be decoded, or that lacks what its kind is about,
nothing reaches a machine: not one field changes, whatever else the message holds
(`step_of_isUnusable`). So such messages may be left out of a run (`run_usable`). A message of an
unknown kind is no message of this protocol, and the one thing such a message can do is to end the
session (`step_of_isForeign`).
-/

set_option autoImplicit false

namespace Parley

open Parley.Wire

namespace Wire

/-! ## What can be used of a message -/

/-- Whether a frame is of no known kind, or lacks what its kind is about. What it holds that other
kinds are about does not count. -/
def SignalFrame.isHollow (f : SignalFrame) : Bool :=
  match FrameKind.ofNumber? f.kind with
  | none => true
  | some .index => f.index.isNone
  | some .subscribeAck => (f.subscribeAck.bind (·.sdpAnswer)).isNone
  | some .audioMetadata => f.audioMetadata.isNone
  | some .audioStreamIdInfo => f.audioStreamIdInfo.isNone
  | some .audioStatus => (f.audioStatus.bind (·.audioStatus)).isNone
  | some .dataMessage => f.dataMessage.isNone
  | some .pingPong => (f.pingPong.bind fun body => PingPongKind.ofNumber? body.kind).isNone
  | some _ => false

/-- Whether a message is shorter than a kind and one more byte, or is a signal message that cannot
be decoded or whose frame is hollow. -/
def isUnusable (message : Octets) : Bool :=
  match message with
  | kind :: b :: rest =>
    kind == Envelope.signalKind && (Envelope.decodeFrame (b :: rest)).all SignalFrame.isHollow
  | _ => true

/-- A message that begins with the byte of no known kind. -/
structure IsForeign (message : Octets) (kind : UInt8) : Prop where
  head : message.head? = some kind
  long : 2 ≤ message.length
  notSignal : kind ≠ Envelope.signalKind
  notMedia : kind ≠ Envelope.mediaKind

theorem decode_of_isForeign {message : Octets} {kind : UInt8} (h : IsForeign message kind) :
    Envelope.decode message = .error (.unsupportedVersion kind) := by
  match message, h with
  | [], h => exact absurd h.long (by simp)
  | [_], h => exact absurd h.long (by simp)
  | a :: b :: rest, h =>
    obtain rfl : a = kind := Option.some.inj h.head
    simp [Envelope.decode, h.notSignal, h.notMedia]

/-- A message is unusable because it is refused, and not for its kind, or because its frame is
hollow. -/
theorem decode_of_isUnusable {message : Octets} (h : isUnusable message = true) :
    (∃ e, Envelope.decode message = .error e ∧ e.isFatal = false) ∨
      ∃ frame, Envelope.decode message = .ok (.signal frame) ∧ frame.isHollow = true := by
  match message with
  | [] => exact .inl ⟨_, rfl, rfl⟩
  | [_] => exact .inl ⟨_, rfl, rfl⟩
  | kind :: b :: rest =>
    simp only [isUnusable, Bool.and_eq_true, beq_iff_eq] at h
    obtain ⟨rfl, hframe⟩ := h
    cases hdecode : Envelope.decodeFrame (b :: rest) with
    | none => exact .inl ⟨.undecodable, by simp [Envelope.decode, hdecode], rfl⟩
    | some frame =>
      rw [hdecode] at hframe
      exact .inr ⟨frame, by simp [Envelope.decode, hdecode], hframe⟩

end Wire

namespace Machine

/-! ## One message -/

/-- Every handler looks for what its kind is about before it touches anything. -/
theorem onFrame_of_isHollow {f : SignalFrame} {kind : FrameKind}
    (hkind : FrameKind.ofNumber? f.kind = some kind) (hollow : f.isHollow = true) (m : Machine)
    (now : Instant) : m.onFrame kind f now = (m, []) := by
  unfold SignalFrame.isHollow at hollow
  rw [hkind] at hollow
  cases kind with
  | index | audioMetadata | audioStreamIdInfo | dataMessage =>
    have hbody := Option.isNone_iff_eq_none.mp hollow
    simp only [onFrame, hbody, withBody]
  | audioStatus =>
    have hstatus : f.audioStatus.bind (·.audioStatus) = none := Option.isNone_iff_eq_none.mp hollow
    simp only [onFrame, hstatus, withBody]
  | subscribeAck =>
    have hanswer : f.subscribeAck.bind (·.sdpAnswer) = none := Option.isNone_iff_eq_none.mp hollow
    cases hbody : f.subscribeAck with
    | none => simp only [onFrame, hbody, withBody]
    | some body =>
      -- without an answer the allocations that came with it are not taken in either
      have hnone : body.sdpAnswer = none := by simpa [hbody] using hanswer
      simp [onFrame, hbody, withBody, onSubscribeAck, hnone]
  | pingPong =>
    have hasked : (f.pingPong.bind fun body => PingPongKind.ofNumber? body.kind) = none :=
      Option.isNone_iff_eq_none.mp hollow
    cases hbody : f.pingPong with
    | none => simp only [onFrame, hbody, withBody]
    | some body =>
      have hnone : PingPongKind.ofNumber? body.kind = none := by simpa [hbody] using hasked
      simp only [onFrame, hbody, withBody, onPingPong, hnone]
  | _ => exact absurd hollow (by simp)

theorem onSignal_of_isHollow {f : SignalFrame} (hollow : f.isHollow = true) (m : Machine)
    (now : Instant) : m.onSignal f now = (m, []) := by
  unfold onSignal
  split
  · rfl
  · rename_i kind hkind
    split
    · rfl
    · exact onFrame_of_isHollow hkind hollow m now

theorem step_of_isUnusable {message : Octets} (h : isUnusable message = true) (m : Machine)
    (now : Instant) : m.step (.message message now) = (m, []) := by
  show m.onMessage message now = (m, [])
  rcases decode_of_isUnusable h with ⟨e, hdecode, hmild⟩ | ⟨frame, hdecode, hollow⟩
  · simp [onMessage, hdecode, hmild]
  · simp only [onMessage, hdecode]
    exact onSignal_of_isHollow hollow m now

theorem step_of_isForeign {message : Octets} {kind : UInt8} (h : IsForeign message kind)
    (m : Machine) (now : Instant) :
    m.step (.message message now) = m.fail (.protocol (.unsupportedVersion kind)) := by
  show m.onMessage message now = _
  simp [onMessage, decode_of_isForeign h, ProtocolError.isFatal]

/-! ## Runs -/

/-- Whether an input brings a message that can be used, or no message at all. -/
def Input.isUsable : Input → Bool
  | .message bytes _ => !isUnusable bytes
  | _ => true

theorem step_of_not_isUsable {input : Input} (h : input.isUsable = false) (m : Machine) :
    m.step input = (m, []) := by
  cases input with
  | message bytes now => exact step_of_isUnusable (by simpa [Input.isUsable] using h) m now
  | _ => exact absurd h (by simp [Input.isUsable])

/-- Messages that cannot be used may be left out of a run: it ends with the same machine and has
asked for the same actions. -/
theorem run_usable (m : Machine) (inputs : List Input) :
    (m.run (inputs.filter Input.isUsable)).1 = (m.run inputs).1 ∧
      (m.run (inputs.filter Input.isUsable)).2.flatten = (m.run inputs).2.flatten := by
  induction inputs generalizing m with
  | nil => exact ⟨rfl, rfl⟩
  | cons input rest ih =>
    obtain ⟨hmachine, hactions⟩ := ih (m.step input).1
    cases husable : input.isUsable with
    | true =>
      rw [List.filter_cons_of_pos husable]
      exact ⟨hmachine, congrArg ((m.step input).2 ++ ·) hactions⟩
    | false =>
      have hstep := step_of_not_isUsable husable m
      rw [hstep] at hmachine hactions
      rw [List.filter_cons_of_neg (by simp [husable])]
      simp only [run, hstep]
      exact ⟨hmachine, hactions⟩

/-- **What cannot be used leaves no trace.** Whatever has happened to a machine, a message that is
too short, cannot be decoded or lacks what its kind is about has no actions and changes nothing in
the machine. Only a message of an unknown kind has an effect: it ends a session that is not over,
and the reason given is that kind. -/
theorem untouched_by_unusable (descriptor : Descriptor) (config : SignalingConfig)
    (offerId : UInt64) (visits : VideoSources.Visits) (past : List Input) (message : Octets)
    (now : Instant) :
    let m := ((new descriptor config offerId visits).run past).1
    (isUnusable message = true → m.step (.message message now) = (m, [])) ∧
    ∀ kind, IsForeign message kind →
      m.step (.message message now) =
        if m.state.isTerminal then (m, [])
        else ({ m with state := .failed },
          [.emit (.failed (.protocol (.unsupportedVersion kind))), .closeTransport]) := by
  intro m
  refine ⟨fun h => step_of_isUnusable h m now, fun kind h => ?_⟩
  rw [step_of_isForeign h]
  cases hover : m.state.isTerminal with
  | true => exact moving_of_isTerminal hover _ _
  | false => exact fail_of_live hover _

/-- A joined client that sends audio gets a stream allocated by an acknowledgment without an answer,
which holds an index too; and then a message of kind 9. -/
theorem untouched_by_unusable_of_joined :
    let descriptor : Descriptor :=
      { meetingId := "m", externalMeetingId := "", credentials := ⟨"a", "", "t"⟩
        audioHostUrl := "", signalingUrl := ⟨"ws://h", by decide⟩ }
    let m := ((new descriptor { sendAudio := true } 0).run
      [.start, .transportUp, .message [0x02, 0x08, 0x00, 0x10, 0x02] 0]).1
    let allocating : Octets :=
      [0x02, 0x08, 0x00, 0x10, 0x04, 0x32, 0x04, 0x12, 0x02, 0x10, 0x07, 0x3a, 0x00]
    m.state = .joined ∧ isUnusable allocating = true ∧ IsForeign [0x09, 0x01] 0x09 ∧
      m.step (.message allocating 0) = (m, []) ∧
      m.step (.message [0x09, 0x01] 0) =
        ({ m with state := .failed },
          [.emit (.failed (.protocol (.unsupportedVersion 0x09))), .closeTransport]) := by
  intro descriptor m allocating
  have joined : m.state = .joined := by decide +kernel
  have unusable : isUnusable allocating = true := by decide +kernel
  have foreign : IsForeign [0x09, 0x01] 0x09 := ⟨rfl, by decide, by decide, by decide⟩
  have live : m.state.isTerminal = false := by rw [joined]; rfl
  have untouched := untouched_by_unusable descriptor { sendAudio := true } 0 (fun _ => .asKept)
    [.start, .transportUp, .message [0x02, 0x08, 0x00, 0x10, 0x02] 0]
  refine ⟨joined, unusable, foreign, (untouched allocating 0).1 unusable, ?_⟩
  have hfails := (untouched [0x09, 0x01] 0).2 0x09 foreign
  rwa [if_neg (by rw [live]; decide)] at hfails

end Machine

end Parley
