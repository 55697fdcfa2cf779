import Parley.Proofs.Client.Turn

/-!
# `Parley/Proofs/Client/Redial.lean` — when a client dials again

A client is cut off in two ways: its dial leads to no line that is up (`Client.misses`), or its line
is lost (`Client.losesLine`). Either way it goes on to an attempt or gives up (`Client.GoesOn`), but
the numbers of the attempts differ: after a dial that misses the count goes on, and after a line
that was lost it begins anew, also where the join was never answered. Nothing else makes a client
connect again that waits for the answer (`state_step_of_not_hangsUp`), and the schedule of the
attempts is never changed (`policy_run`).
-/

set_option autoImplicit false

namespace Parley

open Parley.Wire

/-- Whether the other end closes the line without ending the session, or says nothing more. -/
def Stimulus.hangsUp : Stimulus → Bool
  | .heard none _ => true
  | .heard (some (.disconnected code)) _ => (code.bind Refusal.ofCloseCode?).isNone
  | _ => false

theorem Stimulus.eq_of_hangsUp {s : Stimulus} (h : s.hangsUp = true) :
    (∃ now, s = .heard none now) ∨
      ∃ code now, s = .heard (some (.disconnected code)) now ∧
        code.bind Refusal.ofCloseCode? = none := by
  cases s with
  | heard event now =>
    cases event with
    | none => exact .inl ⟨now, rfl⟩
    | some event =>
      cases event with
      | disconnected code => exact .inr ⟨code, now, rfl, by simpa [hangsUp] using h⟩
      | _ => cases h
  | _ => cases h

namespace Machine

variable {m : Machine}

/-! ## Waiting for the answer to a join -/

theorem state_fail (m : Machine) (reason : FailureReason) (h : m.state ≠ .reconnecting) :
    (m.fail reason).1.state ≠ .reconnecting := by
  cases hlive : m.state.isTerminal with
  | true =>
    rw [fail, moving_of_none (Lifecycle.after?_eq_none_of_isTerminal hlive _)]
    exact h
  | false =>
    rw [fail_of_live hlive]
    exact Lifecycle.noConfusion

theorem state_onFrame (h : m.state = .authenticating) (kind : FrameKind) (frame : SignalFrame)
    (now : Instant) : (m.onFrame kind frame now).1.state ≠ .reconnecting := by
  have hstay : m.state ≠ .reconnecting := by
    rw [h]
    exact Lifecycle.noConfusion
  have hjoined : m.state.isJoined = false := by rw [h]; rfl
  have hbody {α : Type} {body : Option α} {handle : α → Machine × List Action}
      (hhandle : ∀ a, (handle a).1.state ≠ .reconnecting) :
      (m.withBody body handle).1.state ≠ .reconnecting := by
    cases body with
    | none => exact hstay
    | some a => exact hhandle a
  have hpresence (take : Presence → Presence × List Event) :
      (m.onPresence take).1.state ≠ .reconnecting := by
    rw [onPresence, hjoined]
    exact hstay
  cases kind with
  | joinAck =>
    obtain ⟨turn, hstep⟩ := onJoinAck_of_authenticating h frame.joinAck now
    show (m.onJoinAck frame.joinAck now).1.state ≠ .reconnecting
    rw [hstep]
    exact Lifecycle.noConfusion
  | leaveAck =>
    have hmove : m.move? .remoteLeave = some { m with state := .closed } := by
      rw [move?, h]
      rfl
    show m.onLeaveAck.1.state ≠ .reconnecting
    rw [onLeaveAck, hmove]
    exact Lifecycle.noConfusion
  | index =>
    refine hbody fun index => ?_
    rw [onIndex, hjoined]
    exact hstay
  | subscribeAck =>
    refine hbody fun ack => ?_
    rw [onSubscribeAck, hjoined]
    exact hstay
  | audioMetadata => exact hbody fun _ => hpresence _
  | audioStreamIdInfo => exact hbody fun _ => hpresence _
  | audioStatus =>
    refine hbody fun status => ?_
    unfold onAudioStatus
    split
    · exact hstay
    · rw [h]
      exact state_fail m _ hstay
  | dataMessage => exact hbody fun _ => hstay
  | pingPong =>
    refine hbody fun frame => ?_
    unfold onPingPong
    split <;> exact hstay
  | join | subscribe | pause | resume | leave | bitrates | audioControl | clientMetric =>
    exact hstay

/-- A message never makes a machine that waits for the answer connect again. -/
theorem state_onMessage (h : m.state = .authenticating) (bytes : Octets) (now : Instant) :
    (m.onMessage bytes now).1.state ≠ .reconnecting := by
  have hstay : m.state ≠ .reconnecting := by
    rw [h]
    exact Lifecycle.noConfusion
  unfold onMessage
  split
  · unfold onSignal
    split
    · exact hstay
    · split
      · exact hstay
      · exact state_onFrame h _ _ now
  · split <;> exact hstay
  · split
    · exact state_fail m _ hstay
    · exact hstay

end Machine

namespace Client

/-! ## What the parts of a client leave alone -/

/-- Doing what the machine asks for changes the line and the log, and nothing else. -/
theorem performAll_frame (c : Client) (actions : List Action) :
    ∃ line deeds, c.performAll actions = { c with line, deeds } := by
  induction actions generalizing c with
  | nil => exact ⟨c.line, c.deeds, rfl⟩
  | cons action rest ih =>
    have hfirst : ∃ line deeds, c.perform action = { c with line, deeds } := by
      cases action with
      | send frame =>
        show ∃ line deeds, c.send (.signal frame) = { c with line, deeds }
        unfold send
        split
        · exact ⟨_, _, rfl⟩
        · exact ⟨c.line, c.deeds, rfl⟩
      | emit event => exact ⟨_, _, rfl⟩
      | deliver packet => exact ⟨_, _, rfl⟩
      | closeTransport | reconnect =>
        show ∃ line deeds, c.closeLine = { c with line, deeds }
        unfold closeLine
        split
        · exact ⟨_, _, rfl⟩
        · exact ⟨c.line, c.deeds, rfl⟩
    obtain ⟨line, deeds, hperform⟩ := hfirst
    obtain ⟨line', deeds', hrest⟩ := ih { c with line, deeds }
    refine ⟨line', deeds', ?_⟩
    show (c.perform action).performAll rest = _
    rw [hperform, hrest]

theorem closeLine_frame (c : Client) : ∃ line deeds, c.closeLine = { c with line, deeds } :=
  c.performAll_frame [.closeTransport]

theorem policy_performAll (c : Client) (actions : List Action) :
    (c.performAll actions).policy = c.policy := by
  obtain ⟨line, deeds, h⟩ := c.performAll_frame actions
  rw [h]

theorem policy_closeLine (c : Client) : c.closeLine.policy = c.policy :=
  c.policy_performAll [.closeTransport]

theorem policy_redial (c : Client) (attempt : Nat) : (c.redial attempt).policy = c.policy := by
  unfold redial
  split
  · rfl
  · exact policy_performAll _ _

theorem policy_obey (c : Client) (actions : List Action) : (c.obey actions).policy = c.policy := by
  unfold obey
  dsimp only
  split
  · rw [policy_redial, policy_performAll]
  · exact policy_performAll c actions

theorem policy_drive (c : Client) (input : Machine.Input) : (c.drive input).policy = c.policy :=
  policy_obey _ _

theorem policy_retire (c : Client) : c.retire.policy = c.policy := by
  unfold retire
  split
  · exact c.policy_closeLine
  · rfl

theorem policy_dialed (c : Client) (attempt : Nat) (outcome : DialOutcome) :
    (c.dialed attempt outcome).policy = c.policy := by
  cases outcome with
  | opened first =>
    unfold dialed
    dsimp only
    split
    · exact policy_drive _ _
    · exact policy_redial _ _
  | refused | timedOut => exact c.policy_redial _

theorem policy_serve (c : Client) (s : Stimulus) : (c.serve s).policy = c.policy := by
  cases s with
  | heard event now =>
    show (if c.line.isSome then c.heard now event else c).policy = c.policy
    split
    · match event with
      | some .connected => rfl
      | some (.message bytes) => exact c.policy_drive _
      | some (.disconnected code) => exact (policy_drive _ _).trans c.policy_closeLine
      | none => exact (policy_drive _ _).trans c.policy_closeLine
    · rfl
  | command command =>
    cases command with
    | leave => exact policy_obey _ _
    | setMute | sendDataMessage | resubscribe => exact c.policy_drive _
  | media packet =>
    show (if c.state.isJoined then c.send (.media packet) else c).policy = c.policy
    split
    · unfold send
      split <;> rfl
    · rfl
  | pingDue => exact c.policy_drive _
  | stop => exact c.policy_closeLine
  | begin | waited | dialed => rfl

/-- The schedule of a client is never changed. -/
theorem policy_step (c : Client) (s : Stimulus) : (c.step s).policy = c.policy := by
  unfold step
  split
  · exact policy_drive c .start
  · rfl
  · rw [policy_retire, policy_dialed]
  · rw [policy_retire]
    exact policy_drive _ _
  · rw [policy_retire]
    exact policy_drive _ _
  · rw [policy_retire, policy_serve]
  · rfl

theorem policy_run (c : Client) (stimuli : List Stimulus) : (c.run stimuli).policy = c.policy := by
  induction stimuli generalizing c with
  | nil => rfl
  | cons s rest ih => exact (ih (c.step s)).trans (c.policy_step s)

/-! ## A line that is lost before the answer -/

theorem state_performAll (c : Client) (actions : List Action) :
    (c.performAll actions).state = c.state := by
  obtain ⟨line, deeds, h⟩ := c.performAll_frame actions
  rw [h]
  rfl

theorem state_redial {c : Client} (h : c.state ≠ .reconnecting) (attempt : Nat) :
    (c.redial attempt).state ≠ .reconnecting := by
  unfold redial
  split
  · exact h
  · unfold giveUp
    dsimp only
    rw [state_performAll]
    exact Machine.state_fail c.machine _ h

theorem state_obey {c : Client} (h : c.state ≠ .reconnecting) (actions : List Action) :
    (c.obey actions).state ≠ .reconnecting := by
  have hperformed : (c.performAll actions).state ≠ .reconnecting := by
    rw [state_performAll]
    exact h
  unfold obey
  dsimp only
  split
  · exact state_redial hperformed 1
  · exact hperformed

theorem state_retire (c : Client) : c.retire.state = c.state := by
  unfold retire
  split
  · exact c.state_performAll [.closeTransport]
  · rfl

theorem machine_closeLine (c : Client) : c.closeLine.machine = c.machine := by
  obtain ⟨line, deeds, h⟩ := c.closeLine_frame
  rw [h]

/-- As long as the line is there a client that waits for the answer does not connect again. -/
theorem state_step_of_not_hangsUp {c : Client} (waits : c.state = .authenticating)
    (hphase : c.phase = .serving) {s : Stimulus} (hs : s.hangsUp = false) :
    (c.step s).state ≠ .reconnecting := by
  have hmachine : c.machine.state = .authenticating := waits
  have hstay : c.state ≠ .reconnecting := by
    rw [waits]
    exact Lifecycle.noConfusion
  have hjoined : c.machine.state.isJoined = false := by rw [hmachine]; rfl
  have hdrive {d : Client} {input : Machine.Input} (hd : d.machine = c.machine)
      (h : (c.machine.step input).1.state ≠ .reconnecting) :
      (d.drive input).state ≠ .reconnecting := by
    rw [← hd] at h
    exact state_obey (c := { d with machine := (d.machine.step input).1 }) h _
  have hstep : c.step s = (c.serve s).retire := by
    unfold step
    rw [hphase]
  rw [hstep, state_retire]
  cases s with
  | heard event now =>
    show (if c.line.isSome then c.heard now event else c).state ≠ .reconnecting
    split
    · match event, hs with
      | some .connected, _ => exact hstay
      | some (.message bytes), _ => exact hdrive rfl (Machine.state_onMessage hmachine bytes now)
      | some (.disconnected code), hs =>
        refine hdrive c.machine_closeLine ?_
        show (c.machine.transportClosed code).1.state ≠ .reconnecting
        rw [Machine.transportClosed]
        cases hcode : code.bind Refusal.ofCloseCode? with
        | none => exact absurd hs (by simp [Stimulus.hangsUp, hcode])
        | some refusal =>
          dsimp only
          rw [hmachine]
          exact Machine.state_fail c.machine _ hstay
    · exact hstay
  | command command =>
    cases command with
    | leave =>
      have hleft : c.machine.requestLeave.1.state ≠ .reconnecting := by
        rw [Machine.requestLeave_of_live (by rw [hmachine]; rfl) (by rw [hmachine]; decide)]
        exact Lifecycle.noConfusion
      exact state_obey (c := { c with machine := c.machine.requestLeave.1 }) hleft _
    | setMute muted =>
      refine hdrive rfl ?_
      show (c.machine.setMute muted).1.state ≠ .reconnecting
      unfold Machine.setMute
      split <;> exact hstay
    | sendDataMessage message =>
      refine hdrive rfl ?_
      show (c.machine.sendDataMessage message).1.state ≠ .reconnecting
      rw [Machine.sendDataMessage, hjoined]
      exact hstay
    | resubscribe =>
      refine hdrive rfl ?_
      show c.machine.resubscribe.1.state ≠ .reconnecting
      rw [Machine.resubscribe, hjoined]
      exact hstay
  | media packet =>
    show (if c.state.isJoined then c.send (.media packet) else c).state ≠ .reconnecting
    rw [if_neg (by rw [waits]; decide)]
    exact hstay
  | pingDue =>
    refine hdrive rfl ?_
    show c.machine.ping.1.state ≠ .reconnecting
    rw [Machine.ping, hjoined]
    exact hstay
  | stop =>
    show c.closeLine.state ≠ .reconnecting
    rw [state, machine_closeLine]
    exact hstay
  | begin | waited | dialed => exact hstay

/-! ## Dialing again -/

/-- The client goes on to the attempt of this number, if there is one, and else it gives up. -/
structure GoesOn (c : Client) (s : Stimulus) (attempt : Nat) : Prop where
  again : ∀ delay, c.policy.delayFor attempt = some delay →
    (c.step s).phase = .waiting attempt ∧
      ((c.step s).state = .connecting ∨ (c.step s).state = .reconnecting)
  spent : c.policy.delayFor attempt = none →
    (c.step s).phase = .stopped ∧ (c.step s).state = .failed ∧ .notify c.exhausted ∈ c.deedsOf s
  undialed : (c.deedsOf s).count .dial = 0

/-- The dial has led to no line that is up. -/
def misses (c : Client) (s : Stimulus) : Bool :=
  match c.phase, s with
  | .dialing _, .dialed outcome => outcome != .opened (some .connected)
  | _, _ => false

/-- The line is lost, and not because the session is over. -/
def losesLine (c : Client) (s : Stimulus) : Bool :=
  c.line.isSome && c.state.hasTransport && s.hangsUp

theorem of_losesLine {c : Client} {s : Stimulus} (h : c.losesLine s = true) :
    (∃ line, c.line = some line) ∧ c.state.hasTransport = true ∧ s.hangsUp = true := by
  simpa [losesLine, Option.isSome_iff_exists, and_assoc] using h

/-- What the client is told means that it is to connect again. -/
def isCutOff (c : Client) (s : Stimulus) : Bool := c.misses s || c.losesLine s

theorem goesOn_of_redialed {c base : Client} {s : Stimulus} {attempt : Nat} (deeds : List Deed)
    (hstep : c.step s = base.redialed attempt) (hpolicy : base.policy = c.policy)
    (hstate : base.state = .connecting ∨ base.state = .reconnecting)
    (hlog : base.log = c.log ++ deeds) (hdeeds : .dial ∉ deeds) : c.GoesOn s attempt := by
  cases hdelay : c.policy.delayFor attempt with
  | some delay =>
    have hnext : c.step s =
        { base with phase := .waiting attempt, deeds := base.deeds.push (.wait delay) } := by
      rw [hstep, redialed, hpolicy, hdelay]
    have hdone : c.deedsOf s = deeds ++ [.wait delay] := by
      apply deedsOf_eq
      rw [hnext, ← List.append_assoc, ← hlog]
      simp [log]
    refine ⟨fun _ _ => ?_, fun hnone => ?_, ?_⟩
    · rw [hnext]
      exact ⟨rfl, hstate⟩
    · rw [hdelay] at hnone
      cases hnone
    · rw [hdone]
      simpa [List.count_eq_zero] using hdeeds
  | none =>
    have hnext : c.step s =
        { base with
          machine := { base.machine with state := .failed }
          phase := .stopped
          deeds := base.deeds.push (.notify base.exhausted) } := by
      rw [hstep, redialed, hpolicy, hdelay]
    have hdone : c.deedsOf s = deeds ++ [.notify c.exhausted] := by
      apply deedsOf_eq
      rw [hnext, ← List.append_assoc, ← hlog]
      simp [log, exhausted, hpolicy]
    refine ⟨fun _ hsome => ?_, fun _ => ?_, ?_⟩
    · rw [hdelay] at hsome
      cases hsome
    · rw [hdone, hnext]
      exact ⟨rfl, rfl, by simp⟩
    · rw [hdone]
      simpa [List.count_eq_zero] using hdeeds

theorem goesOn_of_misses {c : Client} (h : c.Settled) {attempt : Nat}
    (hphase : c.phase = .dialing attempt) {s : Stimulus} (hs : c.misses s = true) :
    c.GoesOn s (attempt + 1) := by
  obtain ⟨hline, hstate⟩ := h.connecting (by simp [isConnecting, hphase])
  cases s with
  | dialed outcome =>
    have down : outcome ≠ .opened (some .connected) := by
      simpa [misses, hphase] using hs
    have hstep := step_dialed_of_down hphase hline hstate down
    refine goesOn_of_redialed (outcome.turnedAway c.taken) hstep rfl hstate ?_ ?_
    · simp [log, turnedAway]
    · cases outcome <;> simp [DialOutcome.turnedAway]
  | _ => exact absurd hs (by simp [misses, hphase])

/-- Where a client stands that has lost its line and is to dial again. -/
def cutOff (c : Client) (line : Nat) : Client :=
  { c with
    machine := c.machine.transportLost.1
    line := none
    deeds := c.deeds.push (.close line) }

theorem step_of_losesLine {c : Client} (h : c.Settled) {s : Stimulus}
    (hs : c.losesLine s = true) :
    ∃ line, c.line = some line ∧ (c.cutOff line).state = .reconnecting ∧
      c.step s = (c.cutOff line).redialed 1 := by
  obtain ⟨⟨line, up⟩, htransport, hhangs⟩ := of_losesLine hs
  have hphase := h.serving_of_line up
  have hlost := Machine.transportLost_of_hasTransport htransport
  have hstep (input : Machine.Input) (hinput : c.machine.step input = c.machine.transportLost)
      (hdriven : c.step s = (c.closeLine.drive input).retire) :
      c.step s = (c.cutOff line).redialed 1 := by
    rw [closeLine_of_some up] at hdriven
    simp only [drive, hinput, hlost, obey_reconnect] at hdriven
    rw [closeLine_of_none rfl, retire_redial rfl rfl] at hdriven
    rw [hdriven, cutOff, hlost]
  refine ⟨line, up, congrArg (·.1.state) hlost, ?_⟩
  obtain ⟨now, rfl⟩ | ⟨code, now, rfl, hcode⟩ := Stimulus.eq_of_hangsUp hhangs
  · refine hstep .transportLost rfl ?_
    simp [step, hphase, serve, up, heard]
  · refine hstep (.transportClosed code) ?_ ?_
    · show c.machine.transportClosed code = _
      rw [Machine.transportClosed, hcode]
    · simp [step, hphase, serve, up, heard]

theorem goesOn_of_losesLine {c : Client} (h : c.Settled) {s : Stimulus}
    (hs : c.losesLine s = true) : c.GoesOn s 1 := by
  obtain ⟨line, -, hstate, hstep⟩ := step_of_losesLine h hs
  refine goesOn_of_redialed [.close line] hstep rfl (.inr hstate) ?_ ?_
  · simp [log, cutOff]
  · simp

end Client

end Parley
