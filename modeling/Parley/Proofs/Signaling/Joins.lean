import Mathlib.Data.List.Induction
import Parley.Proofs.Signaling.Reaction

/-!
# `Parley/Proofs/Signaling/Joins.lean` — one join for each connection that comes up

A client asks to join in the very step in which a connection comes up, whether it is the first or a
later one, and at no other time: the move in between, connected but not joining, is never seen from
outside. What a join says depends on nothing that happens in a run, so all of them are alike.

A connection is followed by another only if it was asked for, and each time this is asked the
machine enters the state of reconnecting. So it never joins more often than it asked for connections,
the first one being asked for by nobody.

What the messages of the service leave alone is a fact of its own, `own_onMessage`: it is there for
whatever a client decides by itself, joins among them.
-/

set_option autoImplicit false

namespace Parley

open Parley.Wire

namespace Machine

/-! ## What the messages of the service leave alone -/

/-- What a machine has from its owner, and what it counts of its own doings. -/
structure Own where
  descriptor : Descriptor
  config : SignalingConfig
  sdpOffer : String
  muted : Bool
  joinsSent : UInt32
  lastPingId : UInt32

def own (m : Machine) : Own :=
  { descriptor := m.descriptor, config := m.config, sdpOffer := m.sdpOffer, muted := m.muted
    joinsSent := m.joinsSent, lastPingId := m.lastPingId }

theorem own_moving {m : Machine} (o : Own) (move : Move)
    {actions : Machine → Machine × List Action} (h : m.own = o)
    (hactions : ∀ state, (actions { m with state }).1.own = o) :
    (m.moving move actions).1.own = o := by
  cases hmove : m.state.after? move with
  | none =>
    rw [moving_of_none hmove]
    exact h
  | some state =>
    rw [moving_of_some hmove]
    exact hactions state

theorem own_fail (m : Machine) (reason : FailureReason) : (m.fail reason).1.own = m.own :=
  own_moving m.own .fail rfl fun _ => rfl

theorem own_transportLost (m : Machine) : m.transportLost.1.own = m.own := by
  unfold transportLost
  split
  · exact own_moving m.own .transportLost rfl fun _ => rfl
  · rfl

theorem own_withBody {α : Type} {m : Machine} {body : Option α}
    {handle : α → Machine × List Action} (h : ∀ a, (handle a).1.own = m.own) :
    (m.withBody body handle).1.own = m.own := by
  cases body with
  | none => rfl
  | some a => exact h a

theorem own_onJoinAck (m : Machine) (ack : Option JoinAckFrame) (now : Instant) :
    (m.onJoinAck ack now).1.own = m.own := by
  by_cases h : m.state = .authenticating
  · obtain ⟨turn, hstep⟩ := onJoinAck_of_authenticating h ack now
    rw [hstep]
    rfl
  · rw [onJoinAck, if_neg h]

theorem own_onLeaveAck (m : Machine) : m.onLeaveAck.1.own = m.own := by
  unfold onLeaveAck move?
  cases m.state.after? .remoteLeave with
  | none => rfl
  | some state => rfl

theorem own_onIndex (m : Machine) (index : IndexFrame) (now : Instant) :
    (m.onIndex index now).1.own = m.own := by
  unfold onIndex
  split
  · rfl
  · dsimp only
    split
    · rfl
    · split <;> rfl

theorem own_onSubscribeAck (m : Machine) (ack : SubscribeAckFrame) :
    (m.onSubscribeAck ack).1.own = m.own := by
  unfold onSubscribeAck
  split
  · rfl
  · split <;> rfl

theorem own_onAudioStatus (m : Machine) (status : UInt32) :
    (m.onAudioStatus status).1.own = m.own := by
  unfold onAudioStatus
  split
  · rfl
  · dsimp only
    split
    · exact own_fail m _
    · exact own_fail m _
    · split
      · exact own_moving m.own .remoteLeave rfl fun _ => rfl
      · rfl
    · rfl

theorem own_onPingPong (m : Machine) (f : PingPongFrame) : (m.onPingPong f).1.own = m.own := by
  unfold onPingPong
  split <;> rfl

theorem own_onPresence (m : Machine) (take : Presence → Presence × List Event) :
    (m.onPresence take).1.own = m.own := by
  unfold onPresence
  split <;> rfl

theorem own_onFrame (m : Machine) (kind : FrameKind) (frame : SignalFrame) (now : Instant) :
    (m.onFrame kind frame now).1.own = m.own := by
  cases kind with
  | joinAck => exact own_onJoinAck m _ _
  | leaveAck => exact own_onLeaveAck m
  | index => exact own_withBody fun b => own_onIndex m b now
  | subscribeAck => exact own_withBody fun b => own_onSubscribeAck m b
  | audioMetadata => exact own_withBody fun b => own_onPresence m _
  | audioStreamIdInfo => exact own_withBody fun b => own_onPresence m _
  | audioStatus => exact own_withBody fun b => own_onAudioStatus m b
  | dataMessage => exact own_withBody fun b => rfl
  | pingPong => exact own_withBody fun b => own_onPingPong m b
  | join | subscribe | pause | resume | leave | bitrates | audioControl | clientMetric => rfl

/-- **The service has no say in what a machine has of its own.** -/
theorem own_onMessage (m : Machine) (bytes : Octets) (now : Instant) :
    (m.onMessage bytes now).1.own = m.own := by
  unfold onMessage
  split
  · unfold onSignal
    split
    · rfl
    · split
      · rfl
      · exact own_onFrame m _ _ now
  · split <;> rfl
  · split
    · exact own_fail m _
    · rfl

end Machine

/-! ## Joins and losses in a log -/

/-- The frame of an action that asks to join. -/
def Action.joinFrame? : Action → Option SignalFrame
  | .send frame => if Saying.ofFrame frame = .join then some frame else none
  | _ => none

def joinsIn (actions : List Action) : List SignalFrame := actions.filterMap Action.joinFrame?

def Action.isReconnect : Action → Bool
  | .reconnect => true
  | _ => false

/-- How often a new connection is asked for. -/
def reconnects (actions : List Action) : Nat := actions.countP Action.isReconnect

theorem joinsIn_append (actions more : List Action) :
    joinsIn (actions ++ more) = joinsIn actions ++ joinsIn more :=
  List.filterMap_append

theorem reconnects_append (actions more : List Action) :
    reconnects (actions ++ more) = reconnects actions + reconnects more :=
  List.countP_append

theorem joinsIn_of_reports {actions : List Action} (h : ∀ a ∈ actions, a.isReport = true) :
    joinsIn actions = [] := by
  apply List.filterMap_eq_nil_iff.mpr
  intro a ha
  have hreport := h a ha
  cases a with
  | send frame => exact absurd hreport (by simp [Action.isReport])
  | _ => rfl

theorem reconnects_of_reports {actions : List Action} (h : ∀ a ∈ actions, a.isReport = true) :
    reconnects actions = 0 := by
  apply List.countP_eq_zero.mpr
  intro a ha hreconnect
  have hreport := h a ha
  cases a with
  | reconnect => exact absurd hreport (by simp [Action.isReport])
  | _ => exact absurd hreconnect (by simp [Action.isReconnect])

theorem joinsIn_of_session {frame : SignalFrame}
    (h : (Saying.ofFrame frame).isSession = true) : joinsIn [.send frame] = [] := by
  have hnot : Saying.ofFrame frame ≠ .join := by
    intro hjoin
    rw [hjoin] at h
    exact absurd h (by decide)
  simp [joinsIn, Action.joinFrame?, hnot]

namespace Machine

/-! ## One step -/

/-- Whether this input brings up a connection that the machine waits for. -/
def ComesUp (m : Machine) (input : Input) : Prop :=
  input = .transportUp ∧ (m.state.after? .transportUp).isSome = true

instance (m : Machine) (input : Input) : Decidable (m.ComesUp input) :=
  inferInstanceAs (Decidable (_ ∧ _))

theorem dialing_of_after?_isSome {s : Lifecycle} (h : (s.after? .transportUp).isSome = true) :
    s = .connecting ∨ s = .reconnecting := by
  cases s with
  | connecting => exact .inl rfl
  | reconnecting => exact .inr rfl
  | _ => exact absurd h (by decide)

theorem step_of_comesUp {m : Machine} {input : Input} (h : m.ComesUp input) :
    m.step input =
      ({ m with state := .authenticating, joinsSent := m.joinsSent + 1 },
        [.send (joinFrame m.config)]) := by
  obtain ⟨rfl, hup⟩ := h
  exact transportUp_of_dialing (dialing_of_after?_isSome hup)

theorem transportUp_of_not_comesUp {m : Machine} (h : ¬ m.ComesUp .transportUp) :
    m.transportUp = (m, []) := by
  have hnone : m.state.after? .transportUp = none := by
    simpa [ComesUp] using h
  unfold transportUp
  split <;> exact moving_of_none hnone

theorem submitJoin_of_not_connected {m : Machine} (h : m.state ≠ .connected) :
    m.submitJoin = (m, []) := by
  have hnone : m.state.after? .joinSent = none := by
    cases hs : m.state with
    | connected => exact absurd hs h
    | _ => rfl
  exact moving_of_none hnone

/-- Without a connection that comes up nobody joins. -/
theorem Reaction.joinsIn {m next : Machine} {input : Input} {actions : List Action}
    (h : Reaction m input next actions) (unseen : m.state ≠ .connected)
    (hnot : ¬ m.ComesUp input) : joinsIn actions = [] := by
  cases h with
  | quiet _ reports => exact joinsIn_of_reports reports
  | joining state =>
    have hup : m.ComesUp .transportUp := by
      rcases state with state | state <;> exact ⟨rfl, by rw [state]; rfl⟩
    exact absurd hup hnot
  | submitted state => exact absurd state unseen
  | spoke frame _ _ session => exact joinsIn_of_session session
  | _ => rfl

/-- Nor does it count joins at any other time, or change what it would say. -/
theorem own_step {m : Machine} (h : m.state ≠ .connected) {input : Input}
    (hnot : ¬ m.ComesUp input) :
    (m.step input).1.config = m.config ∧ (m.step input).1.joinsSent = m.joinsSent := by
  have of_own {next : Machine} (hown : next.own = m.own) :
      next.config = m.config ∧ next.joinsSent = m.joinsSent :=
    ⟨congrArg Own.config hown, congrArg Own.joinsSent hown⟩
  cases input with
  | message bytes now => exact of_own (own_onMessage m bytes now)
  | start => exact of_own (own_moving m.own .start rfl fun _ => rfl)
  | leave => exact of_own (own_moving m.own .leave rfl fun _ => rfl)
  | transportLost => exact of_own (own_transportLost m)
  | reconnectExhausted attempts => exact of_own (own_fail m _)
  | transportUp =>
    show m.transportUp.1.config = _ ∧ m.transportUp.1.joinsSent = _
    rw [transportUp_of_not_comesUp hnot]
    exact ⟨rfl, rfl⟩
  | submitJoin =>
    show m.submitJoin.1.config = _ ∧ m.submitJoin.1.joinsSent = _
    rw [submitJoin_of_not_connected h]
    exact ⟨rfl, rfl⟩
  | transportClosed code =>
    apply of_own
    rcases transportClosed_cases m code with hcode | ⟨-, reason, hcode⟩
    · rw [step, hcode]
      exact own_transportLost m
    · rw [step, hcode]
      exact own_fail m reason
  | ping =>
    show m.ping.1.config = _ ∧ m.ping.1.joinsSent = _
    unfold ping
    split
    · exact ⟨rfl, rfl⟩
    · split
      · exact of_own (own_transportLost m)
      · exact ⟨rfl, rfl⟩
  | setMute muted =>
    show (m.setMute muted).1.config = _ ∧ (m.setMute muted).1.joinsSent = _
    unfold setMute
    split <;> exact ⟨rfl, rfl⟩
  | sendDataMessage message =>
    show (m.sendDataMessage message).1.config = _ ∧ (m.sendDataMessage message).1.joinsSent = _
    unfold sendDataMessage
    split
    · exact ⟨rfl, rfl⟩
    · split <;> exact ⟨rfl, rfl⟩
  | resubscribe =>
    show m.resubscribe.1.config = _ ∧ m.resubscribe.1.joinsSent = _
    unfold resubscribe
    split <;> exact ⟨rfl, rfl⟩

/-- A new connection is asked for once in each step that enters the state of reconnecting, and in no
other. -/
theorem Reaction.reconnects {m next : Machine} {input : Input} {actions : List Action}
    (h : Reaction m input next actions) :
    reconnects actions = if m.state ≠ .reconnecting ∧ next.state = .reconnecting then 1 else 0 := by
  have elsewhere (hstate : next.state = .reconnecting → m.state = .reconnecting)
      (hnone : Parley.reconnects actions = 0) :
      Parley.reconnects actions =
        if m.state ≠ .reconnecting ∧ next.state = .reconnecting then 1 else 0 := by
    rw [hnone, if_neg]
    rintro ⟨hne, hnext⟩
    exact hne (hstate hnext)
  cases h with
  | quiet state reports =>
    apply elsewhere
    · intro hnext
      exact state.symm.trans hnext
    · exact reconnects_of_reports reports
  | lost state =>
    have hne : m.state ≠ .reconnecting := by
      intro hs
      rw [hs] at state
      exact absurd state (by decide)
    rw [if_pos ⟨hne, rfl⟩]
    rfl
  | admitted _ _ state' | spoke _ _ state' =>
    apply elsewhere
    · intro hnext
      exact absurd (state'.symm.trans hnext) (by decide)
    · rfl
  | answered | acknowledged => exact elsewhere id rfl
  | _ => exact elsewhere nofun rfl

/-! ## Whole runs -/

/-- Whether a connection may come up before a new one is asked for. -/
def Awaits (s : Lifecycle) : Bool := s = .disconnected || s = .connecting || s = .reconnecting

/-- How the joins of a log stand to the machine that it has led to. -/
structure Ledger (config : SignalingConfig) (m : Machine) (log : List Action) : Prop where
  asks : m.config = config
  alike : joinsIn log = List.replicate (joinsIn log).length (joinFrame config)
  sent : m.joinsSent = UInt32.ofNat (joinsIn log).length
  unseen : m.state ≠ .connected
  covered : (joinsIn log).length + (if Awaits m.state then 1 else 0) ≤ 1 + reconnects log

variable {config : SignalingConfig} {m : Machine} {log : List Action}

theorem ledger_new (descriptor : Descriptor) (config : SignalingConfig) (offerId : UInt64)
    (visits : VideoSources.Visits) :
    Ledger config (new descriptor config offerId visits) [] :=
  ⟨rfl, rfl, rfl, nofun, Nat.le_refl 1⟩

theorem Ledger.joined (h : Ledger config m log) {input : Input} (hup : m.ComesUp input) :
    Ledger config (m.step input).1 (log ++ (m.step input).2) := by
  have hjoins : joinsIn (log ++ (m.step input).2) = joinsIn log ++ [joinFrame config] := by
    rw [joinsIn_append, step_of_comesUp hup, h.asks]
    rfl
  have hreconnects : reconnects (log ++ (m.step input).2) = reconnects log := by
    rw [reconnects_append, step_of_comesUp hup]
    rfl
  have hawaits : Awaits m.state = true := by
    rcases dialing_of_after?_isSome hup.2 with hs | hs <;> rw [hs] <;> rfl
  have hcovered := h.covered
  rw [if_pos hawaits] at hcovered
  constructor
  case asks =>
    rw [step_of_comesUp hup]
    exact h.asks
  case alike =>
    rw [hjoins, List.length_append, List.length_singleton, List.replicate_succ', ← h.alike]
  case sent =>
    rw [hjoins, List.length_append, List.length_singleton, step_of_comesUp hup]
    show m.joinsSent + 1 = _
    rw [h.sent, UInt32.ofNat_add]
    rfl
  case unseen =>
    rw [step_of_comesUp hup]
    nofun
  case covered =>
    rw [hjoins, hreconnects, List.length_append, List.length_singleton, step_of_comesUp hup]
    exact hcovered

/-- In a step that does not join, what is asked for covers what may come up. -/
theorem Reaction.covers {m next : Machine} {input : Input} {actions : List Action}
    (h : Reaction m input next actions) (unseen : m.state ≠ .connected)
    (hnot : ¬ m.ComesUp input) :
    next.state ≠ .connected ∧
      (Awaits next.state = true → Awaits m.state = true ∨ Parley.reconnects actions = 1) := by
  cases h with
  | quiet state reports =>
    rw [state]
    exact ⟨unseen, .inl⟩
  | begun state => exact ⟨nofun, fun _ => .inl (by rw [state]; rfl)⟩
  | lost => exact ⟨nofun, fun _ => .inr rfl⟩
  | admitted _ _ state' | spoke _ _ state' =>
    rw [state']
    exact ⟨nofun, nofun⟩
  | answered | acknowledged => exact ⟨unseen, .inl⟩
  | _ => exact ⟨nofun, nofun⟩

theorem Ledger.unjoined (h : Ledger config m log) {input : Input} (hnot : ¬ m.ComesUp input) :
    Ledger config (m.step input).1 (log ++ (m.step input).2) := by
  obtain ⟨hconfig, hsent⟩ := own_step h.unseen hnot
  have hjoins : joinsIn (log ++ (m.step input).2) = joinsIn log := by
    rw [joinsIn_append, (reaction_step m input).joinsIn h.unseen hnot, List.append_nil]
  obtain ⟨unseen, hcovers⟩ := (reaction_step m input).covers h.unseen hnot
  have hcovered := h.covered
  constructor
  case asks => exact hconfig.trans h.asks
  case alike =>
    rw [hjoins]
    exact h.alike
  case sent =>
    rw [hjoins, hsent]
    exact h.sent
  case unseen => exact unseen
  case covered =>
    rw [hjoins, reconnects_append]
    by_cases hawaits : Awaits (m.step input).1.state = true
    · rw [if_pos hawaits]
      rcases hcovers hawaits with hbefore | hasked
      · rw [if_pos hbefore] at hcovered
        omega
      · omega
    · rw [if_neg hawaits]
      omega

theorem ledger_run (descriptor : Descriptor) (config : SignalingConfig) (offerId : UInt64)
    (visits : VideoSources.Visits) (inputs : List Input) :
    Ledger config ((new descriptor config offerId visits).run inputs).1
      ((new descriptor config offerId visits).run inputs).2.flatten := by
  induction inputs using List.reverseRecOn with
  | nil => exact ledger_new descriptor config offerId visits
  | append_singleton inputs input ih =>
    rw [run_concat, List.flatten_append, List.flatten_singleton]
    by_cases hup : ((new descriptor config offerId visits).run inputs).1.ComesUp input
    · exact ih.joined hup
    · exact ih.unjoined hup

/-- **One join for each connection that comes up**, and none without. Whatever has been done with a
new machine, the joins so far are alike and counted (in a word), there is at most one more of them
than new connections were asked for, and the machine is not connected without having joined. The
next input joins, exactly once, if it brings up a connection that is waited for; otherwise it does
not join. And it asks for a new connection, once, exactly if it enters the state of reconnecting. -/
theorem one_join_for_each_connection (descriptor : Descriptor) (config : SignalingConfig)
    (offerId : UInt64) (visits : VideoSources.Visits) (past : List Input) (input : Input) :
    let m := ((new descriptor config offerId visits).run past).1
    let log := ((new descriptor config offerId visits).run past).2.flatten
    let joins := (joinsIn log).length
    joinsIn log = List.replicate joins (joinFrame config) ∧
      m.joinsSent.toNat = joins % UInt32.size ∧
      joins ≤ 1 + reconnects log ∧
      m.state ≠ .connected ∧
      (if m.ComesUp input then
        (m.step input).2 = [.send (joinFrame config)] ∧ (m.step input).1.state = .authenticating
      else joinsIn (m.step input).2 = []) ∧
      reconnects (m.step input).2 =
        if m.state ≠ .reconnecting ∧ (m.step input).1.state = .reconnecting then 1 else 0 := by
  intro m log joins
  have h : Ledger config m log := ledger_run descriptor config offerId visits past
  refine ⟨h.alike, ?_, ?_, h.unseen, ?_, (reaction_step m input).reconnects⟩
  · rw [h.sent]
    exact UInt32.toNat_ofNat'
  · exact Nat.le_trans (Nat.le_add_right _ _) h.covered
  · by_cases hup : m.ComesUp input
    · rw [if_pos hup, step_of_comesUp hup, h.asks]
      exact ⟨rfl, rfl⟩
    · rw [if_neg hup]
      exact (reaction_step m input).joinsIn h.unseen hup

/-- A client that is joined loses its connection. When the next one comes up it joins again. -/
theorem one_join_for_each_connection_of_return :
    let descriptor : Descriptor :=
      { meetingId := "m", externalMeetingId := "", credentials := ⟨"a", "", "t"⟩
        audioHostUrl := "", signalingUrl := ⟨"ws://h", by decide⟩ }
    let past : List Input :=
      [.start, .transportUp, .message [0x02, 0x08, 0x00, 0x10, 0x02] 0, .transportLost]
    let m := ((new descriptor {} 0).run past).1
    let log := ((new descriptor {} 0).run past).2.flatten
    m.state = .reconnecting ∧ m.ComesUp .transportUp ∧
      joinsIn log = [joinFrame {}] ∧ m.joinsSent = 1 ∧ reconnects log = 1 ∧
      (m.step .transportUp).2 = [.send (joinFrame {})] ∧
      (m.step .transportUp).1.state = .authenticating := by
  intro descriptor past m log
  have hstate : m.state = .reconnecting := by decide +kernel
  have hup : m.ComesUp .transportUp := by decide +kernel
  have hcount : (joinsIn log).length = 1 := by decide +kernel
  obtain ⟨halike, -, -, -, hnext, -⟩ :=
    one_join_for_each_connection descriptor {} 0 (fun _ => .asKept) past .transportUp
  rw [if_pos hup] at hnext
  have hjoins : joinsIn log = List.replicate (joinsIn log).length (joinFrame {}) := halike
  rw [hcount] at hjoins
  exact ⟨hstate, hup, hjoins, by decide +kernel, by decide +kernel, hnext⟩

end Machine

end Parley
