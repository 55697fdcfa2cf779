import Parley.Proofs.Signaling.Keepalive
import Parley.Proofs.Signaling.Utterance

/-!
# `Parley/Proofs/Signaling/Muting.lean` — the service knows whether the client is muted

A client may be muted and unmuted at any time, but it can tell the service only while it is joined.
It does so in two ways: a subscription says whether the client is muted by having a mark or none,
and a change during the session is told in a frame of its own. So what the service was told last,
since it let the client in, is what the client was last asked to be (`service_knows_mute`), however
many changes fell into a time without a connection.

The service learns it anew each time it lets the client in, as the subscription goes out at once
(`letIn_or_stays`); from then on the two are kept alike by every input (`toldIn_step`).
-/

set_option autoImplicit false

namespace Parley

open Parley.Wire

/-- What a frame tells the service about the client being muted. A subscription without a mark says
that it is not. -/
def Wire.SignalFrame.mutedTold? (frame : SignalFrame) : Option Bool :=
  match Saying.ofFrame frame with
  | .subscribe => some ((frame.subscribe.bind (·.xrpMuted)).getD false)
  | .audioControl => frame.audioControl.bind (·.muted)
  | _ => none

/-- What an action tells the service about the client being muted. -/
def Action.mutedTold? : Action → Option Bool
  | .send frame => frame.mutedTold?
  | _ => none

/-- All that actions tell the service about the client being muted, in order. -/
def toldIn (actions : List Action) : List Bool := actions.filterMap Action.mutedTold?

theorem toldIn_append (actions more : List Action) :
    toldIn (actions ++ more) = toldIn actions ++ toldIn more :=
  List.filterMap_append

/-- Since it let the client in last, the service was told of it, and this is what it was told
last. -/
def KnowsMuted (log : List Action) (muted : Bool) : Prop :=
  ∃ earlier codec turn since, log = earlier ++ .emit (.joined codec turn) :: since ∧
    (∀ a ∈ since, a.isLetIn = false) ∧ (toldIn since).getLast? = some muted

namespace Machine

/-- The wish to be muted or not that an input brings. -/
def Input.wish? : Input → Option Bool
  | .setMute muted => some muted
  | _ => none

variable {m : Machine} {input : Input} {frame : SignalFrame}

/-! ## One step -/

/-- Nothing but a wish mutes or unmutes the client. -/
theorem muted_step (m : Machine) (input : Input) :
    (m.step input).1.muted = input.wish?.getD m.muted := by
  have of_own {next : Machine} (h : next.own = m.own) : next.muted = m.muted :=
    congrArg Own.muted h
  cases input with
  | setMute muted =>
    show (m.setMute muted).1.muted = muted
    unfold setMute
    split
    · assumption
    · rfl
  | message bytes now => exact of_own (own_onMessage m bytes now)
  | start => exact of_own (own_moving m.own .start rfl fun _ => rfl)
  | leave => exact of_own (own_moving m.own .leave rfl fun _ => rfl)
  | transportLost => exact of_own (own_transportLost m)
  | reconnectExhausted attempts => exact of_own (own_fail m _)
  | transportClosed code =>
    apply of_own
    rcases transportClosed_cases m code with h | ⟨-, reason, h⟩
    · rw [step, h]
      exact own_transportLost m
    · rw [step, h]
      exact own_fail m reason
  | transportUp =>
    by_cases h : m.ComesUp .transportUp
    · rw [step_of_comesUp h]
      rfl
    · rw [step, transportUp_of_not_comesUp h]
      rfl
  | submitJoin =>
    by_cases h : m.state = .connected
    · rw [step, submitJoin, moving_of_some (s := .authenticating) (by simp [h, Lifecycle.after?])]
      rfl
    · rw [step, submitJoin_of_not_connected h]
      rfl
  | ping =>
    by_cases joined : m.state = .joined
    · by_cases few : m.outstandingPings < maxMissedPings
      · rw [step, ping_of_few joined few]
        rfl
      · rw [step, ping_of_many joined (Nat.not_lt.mp few)]
        rfl
    · rw [step, ping_of_not_joined joined]
      rfl
  | sendDataMessage message =>
    show (m.sendDataMessage message).1.muted = m.muted
    unfold sendDataMessage
    split
    · rfl
    · split <;> rfl
  | resubscribe =>
    show m.resubscribe.1.muted = m.muted
    unfold resubscribe
    split <;> rfl

theorem mutedTold?_subscribeFrame (m : Machine) :
    m.subscribeFrame.mutedTold? = some m.muted := by
  show some ((if m.muted then some true else none).getD false) = some m.muted
  cases m.muted <;> rfl

/-- A joined client that has no wish, and is not asked to subscribe, tells nothing of it. -/
theorem Utters.mutedTold?_eq_none (h : Utters m input frame) (joined : m.state = .joined)
    (wish : input.wish? = none) (other : input ≠ .resubscribe) : frame.mutedTold? = none := by
  cases h with
  | letIn state => exact absurd (joined.symm.trans state) (by decide)
  | anew => exact absurd rfl other
  | muted => exact absurd wish (by simp [Input.wish?])
  | join | pong | ping | message | farewell => rfl

/-- **What a joined client tells of being muted is what it is after the step**; if it tells nothing
it is muted or not as before. -/
theorem toldIn_step (joined : m.state = .joined) :
    (toldIn (m.step input).2).getLast?.getD m.muted = (m.step input).1.muted := by
  have hjoined : m.state.isJoined = true := by rw [joined]; rfl
  cases hwish : input.wish? with
  | some muted =>
    obtain rfl : input = .setMute muted := by
      cases input <;> simp_all [Input.wish?]
    show (toldIn (m.setMute muted).2).getLast?.getD m.muted = (m.setMute muted).1.muted
    by_cases hsame : m.muted = muted
    · rw [setMute, if_pos hsame]
      rfl
    · rw [setMute, if_neg hsame, if_pos hjoined]
      rfl
  | none =>
    rw [muted_step, hwish, Option.getD_none]
    by_cases hanew : input = .resubscribe
    · subst hanew
      show (toldIn m.resubscribe.2).getLast?.getD m.muted = m.muted
      rw [resubscribe, if_pos hjoined]
      simp [toldIn, Action.mutedTold?, mutedTold?_subscribeFrame]
    · have hnone : toldIn (m.step input).2 = [] := by
        refine List.filterMap_eq_nil_iff.mpr fun a ha => ?_
        cases a with
        | send frame => exact (utters_step ha).mutedTold?_eq_none joined hwish hanew
        | _ => rfl
      rw [hnone]
      rfl

/-- A client is joined after a step if it is let in by it, and says so and subscribes, or if it was
joined before. -/
theorem letIn_or_stays (joined : (m.step input).1.state = .joined) :
    (∃ codec turn, (m.step input).2 = [.emit (.joined codec turn), .send m.subscribeFrame] ∧
      (m.step input).1.muted = m.muted) ∨
    m.state = .joined ∧ ∀ a ∈ (m.step input).2, a.isLetIn = false := by
  have hbearing := bearing_step m input
  generalize (m.step input).1 = next at hbearing joined ⊢
  generalize (m.step input).2 = actions at hbearing ⊢
  cases hbearing with
  | aside standing same unmarked =>
    have hbefore : m.state = .joined := (same (by rw [joined]; rfl)).mp joined
    exact .inr ⟨hbefore, fun a ha => Action.isLetIn_eq_false (.inl (unmarked a ha))⟩
  | letIn ack now state answer => exact .inl ⟨_, _, rfl, rfl⟩
  | indexed index now brings admits =>
    exact .inr ⟨joined, fun a ha =>
      Action.isLetIn_eq_false (.inr (isSourceNews_indexNews m index now a ha))⟩
  | ponged => exact .inr ⟨joined, by simp⟩
  | pinged state => exact .inr ⟨state, List.forall_mem_singleton.mpr rfl⟩
  | lost => exact absurd joined (by simp)

theorem knowsMuted_step {log : List Action}
    (h : m.state = .joined → KnowsMuted log m.muted) (joined : (m.step input).1.state = .joined) :
    KnowsMuted (log ++ (m.step input).2) (m.step input).1.muted := by
  rcases letIn_or_stays joined with ⟨codec, turn, hactions, hmuted⟩ | ⟨hbefore, hstays⟩
  · refine ⟨log, codec, turn, [.send m.subscribeFrame], by rw [hactions], ?_, ?_⟩
    · exact List.forall_mem_singleton.mpr rfl
    · rw [hmuted]
      simp [toldIn, Action.mutedTold?, mutedTold?_subscribeFrame]
  · obtain ⟨earlier, codec, turn, since, rfl, hnone, htold⟩ := h hbefore
    refine ⟨earlier, codec, turn, since ++ (m.step input).2, by simp, ?_, ?_⟩
    · intro a ha
      rcases List.mem_append.mp ha with ha | ha
      · exact hnone a ha
      · exact hstays a ha
    · rw [toldIn_append, List.getLast?_append, htold, ← toldIn_step hbefore]
      cases (toldIn (m.step input).2).getLast? <;> rfl

/-! ## Whole runs -/

theorem muted_run (m : Machine) (inputs : List Input) :
    (m.run inputs).1.muted = (inputs.filterMap Input.wish?).getLast?.getD m.muted := by
  induction inputs using List.reverseRecOn with
  | nil => rfl
  | append_singleton inputs input ih =>
    rw [run_concat, muted_step, ih, List.filterMap_append, List.getLast?_append]
    cases hwish : input.wish? <;> simp [hwish]

theorem knowsMuted_run (descriptor : Descriptor) (config : SignalingConfig) (offerId : UInt64)
    (visits : VideoSources.Visits) (inputs : List Input) :
    let run := (new descriptor config offerId visits).run inputs
    run.1.state = .joined → KnowsMuted run.2.flatten run.1.muted := by
  intro run
  induction inputs using List.reverseRecOn with
  | nil => exact nofun
  | append_singleton inputs input ih =>
    simp only [run, run_concat, List.flatten_append, List.flatten_singleton]
    exact knowsMuted_step ih

/-- **The service knows whether the client is muted.** Whatever has been done with a new machine, if
it is joined now, then what it last told the service of being muted, since it was last let in, is
what it is; and it told something. What it is comes from the last wish, wherever in the run that
was, and from its configuration if there was none. -/
theorem service_knows_mute (descriptor : Descriptor) (config : SignalingConfig)
    (offerId : UInt64) (visits : VideoSources.Visits) (inputs : List Input)
    (joined : ((new descriptor config offerId visits).run inputs).1.state = .joined) :
    let m := ((new descriptor config offerId visits).run inputs).1
    let log := ((new descriptor config offerId visits).run inputs).2.flatten
    KnowsMuted log m.muted ∧
      m.muted = (inputs.filterMap Input.wish?).getLast?.getD config.muteOnJoin := by
  intro m log
  exact ⟨knowsMuted_run descriptor config offerId visits inputs joined, muted_run _ inputs⟩

/-- A client that joins unmuted, is muted while its connection is lost, and unmuted and muted again
after it is back, in between subscribing anew. -/
theorem service_knows_mute_of_return :
    let descriptor : Descriptor :=
      { meetingId := "m", externalMeetingId := "", credentials := ⟨"a", "", "t"⟩
        audioHostUrl := "", signalingUrl := ⟨"ws://h", by decide⟩ }
    let joinAck : Input := .message [0x02, 0x08, 0x00, 0x10, 0x02] 0
    let inputs : List Input :=
      [.setMute true, .start, .setMute false, .transportUp, joinAck, .transportLost, .setMute true,
        .transportUp, joinAck, .setMute false, .resubscribe, .setMute true]
    let run := (new descriptor {} 0).run inputs
    run.1.state = .joined ∧ toldIn run.2.flatten = [false, true, false, false, true] ∧
      KnowsMuted run.2.flatten true := by
  intro descriptor joinAck inputs run
  have joined : run.1.state = .joined := by decide +kernel
  have told : toldIn run.2.flatten = [false, true, false, false, true] := by decide +kernel
  obtain ⟨hknows, hmuted⟩ := service_knows_mute descriptor {} 0 (fun _ => .asKept) inputs joined
  rw [hmuted] at hknows
  exact ⟨joined, told, hknows⟩

end Machine

end Parley
