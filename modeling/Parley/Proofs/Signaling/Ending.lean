import Mathlib.Data.List.Induction
import Parley.Proofs.Signaling.Reaction

/-!
# `Parley/Proofs/Signaling/Ending.lean` — a session ends once

A session ends in one of two ways, it is closed or it fails, and its owner is told. Two facts about
one step carry the rest. In a live session the end is told in the step that brings it about, and in
no other (`Reaction.endings`); and a session that is over answers nothing, the acknowledgment of a
leave apart, and stays as it is (`step_of_isTerminal`). So over any run the end is told once if the
session is over, and not at all if it is not.
-/

set_option autoImplicit false

namespace Parley

open Parley.Wire

/-- The state that an action reports the session to have ended in, if it reports that. -/
def Action.ending? : Action → Option Lifecycle
  | .emit .closed => some .closed
  | .emit (.failed _) => some .failed
  | _ => none

def endings (actions : List Action) : List Lifecycle := actions.filterMap Action.ending?

@[simp] theorem endings_append (actions more : List Action) :
    endings (actions ++ more) = endings actions ++ endings more :=
  List.filterMap_append ..

theorem endings_of_reports {actions : List Action} (h : ∀ a ∈ actions, a.isReport = true) :
    endings actions = [] := by
  apply List.filterMap_eq_nil_iff.mpr
  intro a ha
  have hreport := h a ha
  cases a with
  | emit event =>
    cases event with
    | closed | failed => exact absurd hreport (by simp [Action.isReport, Event.isPlain])
    | _ => rfl
  | _ => rfl

namespace Machine

/-- The kind of the signal frame that an input brings, if it brings one of a known kind. -/
def Input.frameKind? : Input → Option FrameKind
  | .message bytes _ =>
    match Envelope.decode bytes with
    | .ok (.signal frame) => FrameKind.ofNumber? frame.kind
    | _ => none
  | _ => none

/-! ## A live session -/

theorem Reaction.endings {m next : Machine} {input : Input} {actions : List Action}
    (h : Reaction m input next actions) (live : m.state.isTerminal = false) :
    endings actions = if next.state.isTerminal then [next.state] else [] := by
  cases h with
  | quiet hstate reports =>
    rw [endings_of_reports reports, hstate, live]
    rfl
  | admitted _ _ hstate | spoke _ _ hstate =>
    rw [hstate]
    rfl
  | answered =>
    rw [live]
    rfl
  | acknowledged hstate =>
    rw [hstate] at live
    exact absurd live (by decide)
  | _ => rfl

/-! ## A session that is over -/

/-- What a session that is over answers. -/
def afterword (state : Lifecycle) (input : Input) : List Action :=
  if state = .closed ∧ input.frameKind? = some .leaveAck then
    [.emit .leaveAcknowledged, .closeTransport]
  else []

theorem endings_afterword (state : Lifecycle) (input : Input) :
    endings (afterword state input) = [] := by
  unfold afterword
  split <;> rfl

section Over

variable {m : Machine} (ended : m.state.isTerminal = true)

include ended

theorem moving_of_isTerminal (move : Move) (actions : Machine → Machine × List Action) :
    m.moving move actions = (m, []) :=
  moving_of_none (Lifecycle.after?_eq_none_of_isTerminal ended move)

theorem transportLost_of_isTerminal : m.transportLost = (m, []) :=
  transportLost_of_not_hasTransport (Lifecycle.hasTransport_of_isTerminal ended)

theorem onLeaveAck_of_isTerminal :
    m.onLeaveAck = (m, [.emit .leaveAcknowledged, .closeTransport]) := by
  have hmove : m.move? .remoteLeave = none := by
    rw [move?, Lifecycle.after?_eq_none_of_isTerminal ended]
    rfl
  rw [onLeaveAck, hmove]

/-- A session that is over takes in no frame but, if it is closed, that acknowledgment. -/
theorem onSignal_of_isTerminal (frame : SignalFrame) (now : Instant) :
    m.onSignal frame now =
      (m, if m.state = .closed ∧ FrameKind.ofNumber? frame.kind = some .leaveAck then
        [.emit .leaveAcknowledged, .closeTransport] else []) := by
  cases hkind : FrameKind.ofNumber? frame.kind with
  | none => simp [onSignal, hkind]
  | some kind =>
    cases hs : m.state with
    | failed => simp [onSignal, hkind, ignores, hs]
    | closed =>
      by_cases hack : kind = .leaveAck
      · simp [onSignal, hkind, ignores, hs, hack, onFrame, onLeaveAck_of_isTerminal ended]
      · simp [onSignal, hkind, ignores, hs, hack]
    | _ => exact absurd (hs ▸ ended) (by decide)

theorem onMessage_of_isTerminal (bytes : Octets) (now : Instant) :
    m.onMessage bytes now = (m, afterword m.state (.message bytes now)) := by
  cases hdecode : Envelope.decode bytes with
  | error e =>
    have hfail : m.fail (.protocol e) = (m, []) := moving_of_isTerminal ended _ _
    simp [onMessage, hdecode, afterword, Input.frameKind?, hfail]
  | ok content =>
    cases content with
    | signal frame =>
      simp only [onMessage, hdecode, afterword, Input.frameKind?]
      exact onSignal_of_isTerminal ended frame now
    | media packet =>
      simp [onMessage, hdecode, afterword, Input.frameKind?,
        Lifecycle.isJoined_of_isTerminal ended]

/-- Only the wish to be muted or not is still taken note of. -/
theorem step_of_isTerminal (input : Input) :
    (m.step input).1.state = m.state ∧ (m.step input).2 = afterword m.state input := by
  have hjoined := Lifecycle.isJoined_of_isTerminal ended
  have hlost := transportLost_of_isTerminal ended
  have hmoving := moving_of_isTerminal ended
  cases input with
  | message bytes now =>
    rw [step, onMessage_of_isTerminal ended]
    exact ⟨rfl, rfl⟩
  | transportUp =>
    have hstep : m.transportUp = (m, []) := by
      unfold transportUp
      split <;> exact hmoving _ _
    simp [step, hstep, afterword, Input.frameKind?]
  | transportClosed code =>
    have hstep : m.transportClosed code = (m, []) := by
      rcases transportClosed_cases m code with h | ⟨live, -⟩
      · rw [h, hlost]
      · exact absurd (ended.symm.trans live) (by decide)
    simp [step, hstep, afterword, Input.frameKind?]
  | setMute muted =>
    have hword : afterword m.state (.setMute muted) = [] := by simp [afterword, Input.frameKind?]
    rw [hword, step, setMute]
    split <;> simp [hjoined]
  | start | submitJoin | leave | transportLost | reconnectExhausted =>
    simp [step, start, submitJoin, requestLeave, reconnectExhausted, fail, hmoving, hlost,
      afterword, Input.frameKind?]
  | ping | sendDataMessage | resubscribe =>
    simp [step, ping, sendDataMessage, resubscribe, hjoined, afterword, Input.frameKind?]

theorem run_of_isTerminal (inputs : List Input) :
    (m.run inputs).1.state = m.state ∧ (m.run inputs).2 = inputs.map (afterword m.state) := by
  induction inputs generalizing m with
  | nil => exact ⟨rfl, rfl⟩
  | cons input rest ih =>
    obtain ⟨hstate, hactions⟩ := step_of_isTerminal ended input
    obtain ⟨hstate', hactions'⟩ := ih (m := (m.step input).1) (by rw [hstate]; exact ended)
    refine ⟨hstate'.trans hstate, ?_⟩
    show (m.step input).2 :: ((m.step input).1.run rest).2 = _
    rw [hactions, hactions', hstate]
    rfl

end Over

/-! ## Whole runs -/

theorem endings_run {m : Machine} (live : m.state.isTerminal = false) (inputs : List Input) :
    endings (m.run inputs).2.flatten =
      if (m.run inputs).1.state.isTerminal then [(m.run inputs).1.state] else [] := by
  induction inputs using List.reverseRecOn with
  | nil =>
    show ([] : List Lifecycle) = if m.state.isTerminal then [m.state] else []
    rw [live]
    rfl
  | append_singleton inputs input ih =>
    simp only [run_concat, List.flatten_append, List.flatten_singleton, endings_append, ih]
    cases hover : (m.run inputs).1.state.isTerminal with
    | false => exact (reaction_step _ input).endings hover
    | true =>
      -- the end was told before, and what follows it says nothing more of it
      obtain ⟨hstate, hactions⟩ := step_of_isTerminal hover input
      rw [hactions, endings_afterword, hstate, hover]
      rfl

/-- **A session ends once.** Whatever is done with a new machine, the ends told of so far are the
one that its state stands for, if that is terminal, and none otherwise. From then on the state
stays, and whatever else is done has no actions, but that a closed machine takes note of the
acknowledgment of its leave. -/
theorem ends_once (descriptor : Descriptor) (config : SignalingConfig) (offerId : UInt64)
    (visits : VideoSources.Visits) (past rest : List Input) :
    let m := ((new descriptor config offerId visits).run past).1
    let log := ((new descriptor config offerId visits).run past).2.flatten
    endings log = (if m.state.isTerminal then [m.state] else []) ∧
      (m.state.isTerminal = true →
        (m.run rest).1.state = m.state ∧
        (m.run rest).2 = rest.map fun input =>
          if m.state = .closed ∧ input.frameKind? = some .leaveAck then
            [.emit .leaveAcknowledged, .closeTransport]
          else []) := by
  intro m log
  refine ⟨endings_run rfl past, fun ended => ?_⟩
  exact run_of_isTerminal ended rest

/-- A client that leaves as soon as it has begun, and is then acknowledged and asked to go on. -/
theorem ends_once_of_leave :
    let descriptor : Descriptor :=
      { meetingId := "m", externalMeetingId := "", credentials := ⟨"a", "", "t"⟩
        audioHostUrl := "", signalingUrl := ⟨"ws://h", by decide⟩ }
    let m := ((new descriptor {} 0).run [.start, .leave]).1
    let rest : List Input := [.message [0x02, 0x08, 0x00, 0x10, 0x0a] 0, .transportUp, .ping]
    m.state.isTerminal = true ∧ (m.run rest).1.state = .closed ∧
      (m.run rest).2 = [[.emit .leaveAcknowledged, .closeTransport], [], []] := by
  intro descriptor m rest
  have ended : m.state.isTerminal = true := rfl
  obtain ⟨hstate, hactions⟩ :=
    (ends_once descriptor {} 0 (fun _ => .asKept) [.start, .leave] rest).2 ended
  exact ⟨ended, hstate, hactions⟩

end Machine

end Parley
