import Mathlib.Data.List.Induction
import Parley.Client
import Parley.Proofs.Signaling.Reaction

/-!
# `Parley/Proofs/Client/Turn.lean` — what one stimulus can make a client do

Between two stimuli a client is **settled**: it is dialing without a line, or serving over one, or
it has stopped and has none. What a stimulus does to a settled client is one of the entries of
`Turn`, each with the deeds that it adds to the log, in order. `turn_step` says that the list is
complete and `settled_run` that a client is settled after every run.

Everything that is proved of all runs of a client goes through this list: the entries say what the
actor does with its line at every point where it could be closed, lost or left.
-/

set_option autoImplicit false

namespace Parley

open Parley.Wire

/-- Whether a stimulus is that an answer to a join is heard. -/
def Stimulus.IsJoinAck : Stimulus → Prop
  | .heard (some (.message bytes)) _ => Wire.IsJoinAck bytes
  | _ => False

/-- A deed that passes something on and marks no turn of the session. -/
def Deed.isReport : Deed → Bool
  | .notify event => event.isPlain
  | .deliver _ => true
  | _ => false

/-- A deed that passes something on. -/
def Deed.isNews : Deed → Bool
  | .notify _ | .deliver _ => true
  | _ => false

theorem Deed.isNews_of_isReport {d : Deed} (h : d.isReport = true) : d.isNews = true := by
  cases d <;> simp_all [isReport, isNews]

/-- The number of lines that a dial hands out. -/
def DialOutcome.lines : DialOutcome → Nat
  | .opened _ => 1
  | _ => 0

/-- What a client does with a line that does not come up. -/
def DialOutcome.turnedAway (line : Nat) : DialOutcome → List Deed
  | .opened _ => [.take line, .close line]
  | _ => []

namespace Client

def log (c : Client) : List Deed := c.deeds.toList

def deedsOf (c : Client) (s : Stimulus) : List Deed := (c.step s).log.drop c.log.length

/-- The news that a client gives when it gives up dialing. -/
def exhausted (c : Client) : Event :=
  .failed (.connect (.retriesExhausted c.policy.maxAttempts))

/-- How a client stands between two stimuli. -/
def Settled (c : Client) : Prop :=
  match c.phase with
  | .idle => c.line = none ∧ c.state = .disconnected
  | .waiting _ | .dialing _ => c.line = none ∧ (c.state = .connecting ∨ c.state = .reconnecting)
  | .serving =>
    c.line.isSome = true ∧ (c.state = .authenticating ∨ c.state = .joined ∨ c.state = .closed)
  | .stopped => c.line = none

/-- All that a stimulus can do to a settled client, and what it makes it do. -/
inductive Turn (c : Client) : Stimulus → Client → List Deed → Prop where
  /-- Nothing but reports are passed on. The outcome of a dial is never taken this lightly. -/
  | still {s : Stimulus} {next : Client} {deeds : List Deed}
      (undialed : ∀ attempt outcome, c.phase = .dialing attempt → s ≠ .dialed outcome)
      (state' : next.state = c.state) (phase' : next.phase = c.phase) (line' : next.line = c.line)
      (taken' : next.taken = c.taken) (reports : ∀ d ∈ deeds, d.isReport = true) :
      Turn c s next deeds
  | began {next : Client} (phase : c.phase = .idle) (state' : next.state = .connecting)
      (phase' : next.phase = .dialing 0) (line' : next.line = none)
      (taken' : next.taken = c.taken) : Turn c .begin next [.dial]
  | redialed {next : Client} {attempt : Nat} (phase : c.phase = .waiting attempt)
      (state' : next.state = c.state) (phase' : next.phase = .dialing attempt)
      (line' : next.line = none) (taken' : next.taken = c.taken) : Turn c .waited next [.dial]
  /-- A dial leads to no line that is up, and another attempt is left. -/
  | missed {next : Client} {attempt : Nat} {outcome : DialOutcome} {delay : Span}
      (phase : c.phase = .dialing attempt) (down : outcome ≠ .opened (some .connected))
      (again : c.policy.delayFor (attempt + 1) = some delay) (state' : next.state = c.state)
      (phase' : next.phase = .waiting (attempt + 1)) (line' : next.line = none)
      (taken' : next.taken = c.taken + outcome.lines) :
      Turn c (.dialed outcome) next (outcome.turnedAway c.taken ++ [.wait delay])
  /-- A dial leads to no line that is up, and no attempt is left. -/
  | gaveUp {next : Client} {attempt : Nat} {outcome : DialOutcome}
      (phase : c.phase = .dialing attempt) (down : outcome ≠ .opened (some .connected))
      (spent : c.policy.delayFor (attempt + 1) = none) (state' : next.state = .failed)
      (phase' : next.phase = .stopped) (line' : next.line = none)
      (taken' : next.taken = c.taken + outcome.lines) :
      Turn c (.dialed outcome) next (outcome.turnedAway c.taken ++ [.notify c.exhausted])
  | connected {next : Client} {attempt : Nat} (phase : c.phase = .dialing attempt)
      (state' : next.state = .authenticating) (phase' : next.phase = .serving)
      (line' : next.line = some c.taken) (taken' : next.taken = c.taken + 1) :
      Turn c (.dialed (.opened (some .connected))) next
        [.take c.taken, .send c.taken (.signal (Machine.joinFrame c.machine.config))]
  | withdrew {next : Client} (connecting : c.isConnecting = true) (state' : next.state = .closed)
      (phase' : next.phase = .stopped) (line' : next.line = none)
      (taken' : next.taken = c.taken) : Turn c .stop next [.notify .closed]
  /-- One thing is said. Until the client is joined it only gives signs of life. -/
  | spoke {s : Stimulus} {next : Client} {line : Nat} {content : Content} (up : c.line = some line)
      (session : (Saying.of content).isSession = true)
      (state : c.state = .joined ∨ c.state = .authenticating ∧ Saying.of content = .pong)
      (state' : next.state = c.state) (phase' : next.phase = c.phase) (line' : next.line = c.line)
      (taken' : next.taken = c.taken) : Turn c s next [.send line content]
  | admitted {s : Stimulus} {next : Client} {line : Nat} {event : Event} {frame : SignalFrame}
      (up : c.line = some line) (state : c.state = .authenticating) (answer : s.IsJoinAck)
      (asks : Saying.ofFrame frame = .subscribe) (state' : next.state = .joined)
      (phase' : next.phase = c.phase) (line' : next.line = c.line) (taken' : next.taken = c.taken) :
      Turn c s next [.notify event, .send line (.signal frame)]
  | lost {s : Stimulus} {next : Client} {line : Nat} {delay : Span} (up : c.line = some line)
      (live : c.state.isTerminal = false)
      (again : c.policy.delayFor 1 = some delay) (state' : next.state = .reconnecting)
      (phase' : next.phase = .waiting 1) (line' : next.line = none)
      (taken' : next.taken = c.taken) : Turn c s next [.close line, .wait delay]
  /-- The line is lost, and the policy has no attempts. -/
  | lostForGood {s : Stimulus} {next : Client} {line : Nat} (up : c.line = some line)
      (live : c.state.isTerminal = false)
      (spent : c.policy.delayFor 1 = none) (state' : next.state = .failed)
      (phase' : next.phase = .stopped) (line' : next.line = none)
      (taken' : next.taken = c.taken) : Turn c s next [.close line, .notify c.exhausted]
  | ended {s : Stimulus} {next : Client} {line : Nat} {before after : List Deed}
      (up : c.line = some line) (news : ∀ d ∈ before ++ after, d.isNews = true)
      (phase' : next.phase = .stopped) (line' : next.line = none) (taken' : next.taken = c.taken) :
      Turn c s next (before ++ .close line :: after)
  /-- A joined client says goodbye, and keeps its line for the answer. -/
  | left {next : Client} {line : Nat} (up : c.line = some line) (state : c.state = .joined)
      (state' : next.state = .closed) (phase' : next.phase = c.phase) (line' : next.line = c.line)
      (taken' : next.taken = c.taken) :
      Turn c (.command .leave) next [.send line (.signal Machine.leaveFrame), .notify .closed]

/-- A stimulus is good for one turn, and all that the turn does is added to the log. -/
def TakesTurn (c : Client) (s : Stimulus) : Prop :=
  (c.step s).log = c.log ++ c.deedsOf s ∧ Turn c s (c.step s) (c.deedsOf s)

/-! ## What the parts of a turn do -/

theorem closeLine_of_some {c : Client} {line : Nat} (h : c.line = some line) :
    c.closeLine = { c with line := none, deeds := c.deeds.push (.close line) } := by
  simp [closeLine, h, act]

theorem closeLine_of_none {c : Client} (h : c.line = none) : c.closeLine = c := by
  simp [closeLine, h]

theorem send_of_some {c : Client} {line : Nat} (h : c.line = some line) (content : Content) :
    c.send content = { c with deeds := c.deeds.push (.send line content) } := by
  simp [send, h, act]

theorem performAll_of_reports {actions : List Action} (h : ∀ a ∈ actions, a.isReport = true) :
    ∀ c : Client, ∃ deeds : List Deed, (∀ d ∈ deeds, d.isReport = true) ∧
      c.performAll actions = { c with deeds := c.deeds ++ deeds } := by
  induction actions with
  | nil => exact fun c => ⟨[], by simp, by simp [performAll]⟩
  | cons a rest ih =>
    -- the client moves on with each report, so the claim is made of all clients
    intro c
    have hrest : ∀ b ∈ rest, b.isReport = true := fun b hb => h b (List.mem_cons_of_mem _ hb)
    have ha := h a List.mem_cons_self
    cases a with
    | emit event =>
      obtain ⟨deeds, hdeeds, hdo⟩ := ih hrest (c.act (.notify event))
      refine ⟨.notify event :: deeds, ?_, ?_⟩
      · simpa [Deed.isReport, Action.isReport] using And.intro ha hdeeds
      · show (c.act (.notify event)).performAll rest = _
        rw [hdo]
        simp [act]
    | deliver packet =>
      obtain ⟨deeds, hdeeds, hdo⟩ := ih hrest (c.act (.deliver packet))
      refine ⟨.deliver packet :: deeds, ?_, ?_⟩
      · simpa [Deed.isReport] using hdeeds
      · show (c.act (.deliver packet)).performAll rest = _
        rw [hdo]
        simp [act]
    | _ => exact absurd ha (by simp [Action.isReport])

theorem retire_of_not_serving {c : Client} (h : c.phase ≠ .serving) : c.retire = c := by
  simp [retire, h]

theorem retire_of_up {c : Client} {line : Nat} (h : c.line = some line) : c.retire = c := by
  simp [retire, h]

theorem retire_of_over {c : Client} (hphase : c.phase = .serving)
    (hover : c.state.isTerminal = true) (hline : c.line = none) :
    c.retire = { c with phase := .stopped } := by
  rw [retire, if_pos ⟨hphase, hover, hline⟩, halt, closeLine_of_none hline]

/-- Where a client stands that is to dial again: it waits, or it has given up and stopped. -/
def redialed (c : Client) (attempt : Nat) : Client :=
  match c.policy.delayFor attempt with
  | some delay => { c with phase := .waiting attempt, deeds := c.deeds.push (.wait delay) }
  | none =>
    { c with
      machine := { c.machine with state := .failed }
      phase := .stopped
      deeds := c.deeds.push (.notify c.exhausted) }

theorem retire_redial {c : Client} (hlive : c.state.isTerminal = false) (hline : c.line = none)
    (attempt : Nat) : (c.redial attempt).retire = c.redialed attempt := by
  cases hdelay : c.policy.delayFor attempt with
  | some delay =>
    simp only [redial, redialed, hdelay]
    exact retire_of_not_serving (by simp [act])
  | none =>
    have hgive : c.giveUp =
        { c with
          machine := { c.machine with state := .failed }
          phase := .serving
          deeds := c.deeds.push (.notify c.exhausted) } := by
      simp [giveUp, Machine.step, Machine.reconnectExhausted, Machine.fail_of_live hlive,
        performAll, perform, act, closeLine, hline, exhausted]
    simp only [redial, redialed, hdelay, hgive]
    exact retire_of_over rfl rfl hline

theorem obey_reconnect (c : Client) : c.obey [.reconnect] = c.closeLine.redial 1 := by
  simp [obey, performAll, perform]

theorem deedsOf_eq {c : Client} {s : Stimulus} {deeds : List Deed}
    (h : (c.step s).log = c.log ++ deeds) : c.deedsOf s = deeds := by
  simp [deedsOf, h]

/-- A turn is shown by saying where the client stands after it and what its log holds then. -/
theorem turn_of_eq {c next : Client} {s : Stimulus} (deeds : List Deed) (hstep : c.step s = next)
    (hlog : next.log = c.log ++ deeds) (h : Turn c s next deeds) :
    c.TakesTurn s := by
  rw [TakesTurn, deedsOf_eq (hstep ▸ hlog), hstep]
  exact ⟨hlog, h⟩

theorem turn_of_ignored {c : Client} {s : Stimulus}
    (undialed : ∀ attempt outcome, c.phase = .dialing attempt → s ≠ .dialed outcome)
    (h : c.step s = c) : c.TakesTurn s :=
  turn_of_eq [] h (by simp) (.still undialed rfl rfl rfl rfl (by simp))

/-! ## Dialing -/

/-- Where a client stands that begins its session. -/
def begun (c : Client) : Client := { c with machine := { c.machine with state := .connecting } }

theorem step_begin {c : Client} (hphase : c.phase = .idle) (hstate : c.state = .disconnected) :
    c.step .begin = c.begun.dial 0 := by
  have hmachine : c.machine.start = ({ c.machine with state := .connecting }, []) := by
    rw [Machine.start, Machine.moving_of_some (s := .connecting)]
    simpa [state, Lifecycle.after?] using congrArg (·.after? .start) hstate
  simp [step, hphase, start, drive, Machine.step, hmachine, obey, performAll, begun]

theorem turn_begin {c : Client} (h : c.Settled) (hphase : c.phase = .idle) :
    c.TakesTurn .begin := by
  obtain ⟨hline, hstate⟩ : c.line = none ∧ c.state = .disconnected := by
    simpa [Settled, hphase] using h
  have hlog : (c.begun.dial 0).log = c.log ++ [.dial] := by
    simp [begun, dial, act, log]
  exact turn_of_eq [.dial] (step_begin hphase hstate) hlog (.began hphase rfl rfl hline rfl)

theorem turn_waited {c : Client} (h : c.Settled) {attempt : Nat}
    (hphase : c.phase = .waiting attempt) : c.TakesTurn .waited := by
  have hline : c.line = none := by
    simp only [Settled, hphase] at h
    exact h.1
  have hstep : c.step .waited =
      { c with phase := .dialing attempt, deeds := c.deeds.push .dial } := by
    simp [step, hphase, dial, act]
  exact turn_of_eq [.dial] hstep (by simp [log]) (.redialed hphase rfl rfl hline rfl)

theorem Settled.connecting {c : Client} (h : c.Settled) (hc : c.isConnecting = true) :
    c.line = none ∧ (c.state = .connecting ∨ c.state = .reconnecting) := by
  cases hphase : c.phase <;> simp_all [Settled, isConnecting]

theorem isTerminal_of_dialing {s : Lifecycle} (h : s = .connecting ∨ s = .reconnecting) :
    s.isTerminal = false := by
  rcases h with rfl | rfl <;> rfl

/-- Where a client stands once a line that did not come up is closed. -/
def turnedAway (c : Client) (outcome : DialOutcome) : Client :=
  { c with
    taken := c.taken + outcome.lines
    deeds := c.deeds ++ outcome.turnedAway c.taken }

theorem dialed_of_down {c : Client} {outcome : DialOutcome} (attempt : Nat)
    (h : outcome ≠ .opened (some .connected)) :
    c.dialed attempt outcome = (c.turnedAway outcome).redial (attempt + 1) := by
  cases outcome with
  | refused | timedOut => simp [dialed, turnedAway, DialOutcome.lines, DialOutcome.turnedAway]
  | opened first =>
    have hfirst : first ≠ some .connected := fun hf => h (by rw [hf])
    simp [dialed, turnedAway, hfirst, act, DialOutcome.lines, DialOutcome.turnedAway]

theorem step_dialed_of_down {c : Client} {attempt : Nat} (hphase : c.phase = .dialing attempt)
    (hline : c.line = none) (hstate : c.state = .connecting ∨ c.state = .reconnecting)
    {outcome : DialOutcome} (down : outcome ≠ .opened (some .connected)) :
    c.step (.dialed outcome) = (c.turnedAway outcome).redialed (attempt + 1) := by
  have hlive : (c.turnedAway outcome).state.isTerminal = false := isTerminal_of_dialing hstate
  simp only [step, hphase, dialed_of_down attempt down]
  exact retire_redial hlive hline (attempt + 1)

theorem turn_dialed_of_down {c : Client} (h : c.Settled) {attempt : Nat}
    (hphase : c.phase = .dialing attempt) {outcome : DialOutcome}
    (down : outcome ≠ .opened (some .connected)) :
    c.TakesTurn (.dialed outcome) := by
  obtain ⟨hline, hstate⟩ := h.connecting (by simp [isConnecting, hphase])
  have hstep := step_dialed_of_down hphase hline hstate down
  cases hdelay : c.policy.delayFor (attempt + 1) with
  | some delay =>
    have hnext : (c.turnedAway outcome).redialed (attempt + 1) =
        { c.turnedAway outcome with
          phase := .waiting (attempt + 1)
          deeds := (c.turnedAway outcome).deeds.push (.wait delay) } := by
      simp [redialed, turnedAway, hdelay]
    refine turn_of_eq (outcome.turnedAway c.taken ++ [Deed.wait delay]) (hstep.trans hnext) ?_ ?_
    · simp [log, turnedAway]
    · exact .missed hphase down hdelay rfl rfl hline rfl
  | none =>
    have hnext : (c.turnedAway outcome).redialed (attempt + 1) =
        { c.turnedAway outcome with
          machine := { c.machine with state := .failed }
          phase := .stopped
          deeds := (c.turnedAway outcome).deeds.push (.notify c.exhausted) } := by
      simp [redialed, turnedAway, hdelay, exhausted]
    refine turn_of_eq (outcome.turnedAway c.taken ++ [Deed.notify c.exhausted])
      (hstep.trans hnext) ?_ ?_
    · simp [log, turnedAway]
    · exact .gaveUp hphase down hdelay rfl rfl hline rfl

theorem step_dialed_of_up {c : Client} {attempt : Nat} (hphase : c.phase = .dialing attempt)
    (hstate : c.state = .connecting ∨ c.state = .reconnecting) :
    c.step (.dialed (.opened (some .connected))) =
      { c with
        machine :=
          { c.machine with state := .authenticating, joinsSent := c.machine.joinsSent + 1 }
        phase := .serving
        line := some c.taken
        taken := c.taken + 1
        deeds := (c.deeds.push (.take c.taken)).push
          (.send c.taken (.signal (Machine.joinFrame c.machine.config))) } := by
  have hup : c.machine.transportUp = _ := Machine.transportUp_of_dialing hstate
  simp only [step, hphase, dialed, act, if_true, drive, Machine.step, hup, obey, performAll,
    List.foldl_cons, List.foldl_nil, perform, send]
  exact retire_of_up rfl

theorem turn_dialed_of_up {c : Client} (h : c.Settled) {attempt : Nat}
    (hphase : c.phase = .dialing attempt) :
    c.TakesTurn (.dialed (.opened (some .connected))) := by
  obtain ⟨-, hstate⟩ := h.connecting (by simp [isConnecting, hphase])
  exact turn_of_eq [.take c.taken, .send c.taken (.signal (Machine.joinFrame c.machine.config))]
    (step_dialed_of_up hphase hstate) (by simp [log]) (.connected hphase rfl rfl rfl rfl)

theorem turn_stop_of_connecting {c : Client} (h : c.Settled) (hc : c.isConnecting = true) :
    c.TakesTurn .stop := by
  obtain ⟨hline, hstate⟩ := h.connecting hc
  have hlive : c.machine.state.isTerminal = false := isTerminal_of_dialing hstate
  have hnotJoined : c.machine.state ≠ .joined := by
    intro hj
    rcases hstate with hs | hs <;> exact absurd (hs.symm.trans hj) (by decide)
  have hgive : c.abandonDial =
      { c with
        machine := { c.machine with state := .closed }
        phase := .serving
        deeds := c.deeds.push (.notify .closed) } := by
    simp [abandonDial, drive, Machine.step, Machine.requestLeave_of_live hlive hnotJoined, obey,
      performAll, perform, act]
  have hstep : c.step .stop = c.abandonDial.retire := by
    cases hphase : c.phase <;> simp_all [step, isConnecting]
  rw [hgive] at hstep
  exact turn_of_eq [.notify .closed] (hstep.trans (retire_of_over rfl rfl hline)) (by simp [log])
    (.withdrew hc rfl rfl hline rfl)

/-! ## Serving -/

theorem Settled.serving {c : Client} (h : c.Settled) (hphase : c.phase = .serving) :
    (∃ line, c.line = some line) ∧
      (c.state = .authenticating ∨ c.state = .joined ∨ c.state = .closed) := by
  simp only [Settled, hphase] at h
  exact ⟨Option.isSome_iff_exists.mp h.1, h.2⟩

theorem Settled.serving_of_line {c : Client} {line : Nat} (h : c.Settled)
    (up : c.line = some line) : c.phase = .serving := by
  cases hphase : c.phase <;> simp_all [Settled]

theorem turn_of_lost {c : Client} {s : Stimulus} {line : Nat} {m : Machine}
    (up : c.line = some line) (transport : c.state.hasTransport = true)
    (lost : m.state = .reconnecting)
    (hstep : c.step s =
      ({ c with
        machine := m
        line := none
        deeds := c.deeds.push (.close line) }.redial 1).retire) :
    c.TakesTurn s := by
  have live : c.state.isTerminal = false := by
    cases hs : c.state <;> simp_all [Lifecycle.hasTransport, Lifecycle.isTerminal]
  have hlive : m.state.isTerminal = false := by rw [lost]; rfl
  have hnext := hstep.trans (retire_redial (by exact hlive) rfl 1)
  cases hdelay : c.policy.delayFor 1 with
  | some delay =>
    simp only [redialed, hdelay] at hnext
    exact turn_of_eq [.close line, .wait delay] hnext (by simp [log])
      (.lost up live hdelay lost rfl rfl rfl)
  | none =>
    simp only [redialed, hdelay] at hnext
    exact turn_of_eq [.close line, .notify c.exhausted] hnext (by simp [log, exhausted])
      (.lostForGood up live hdelay rfl rfl rfl rfl)

/-- The session is over, the line is closed, and so the client stops. -/
theorem turn_of_over {c : Client} {s : Stimulus} {line : Nat} {m : Machine}
    (before after : List Deed) (hphase : c.phase = .serving) (up : c.line = some line)
    (news : ∀ d ∈ before ++ after, d.isNews = true) (hover : m.state.isTerminal = true)
    (hstep : c.step s =
      { c with
        machine := m
        line := none
        deeds := c.deeds ++ (before ++ Deed.close line :: after) }.retire) :
    c.TakesTurn s :=
  turn_of_eq (before ++ .close line :: after) (hstep.trans (retire_of_over hphase hover rfl))
    (by simp [log]) (.ended up news rfl rfl rfl)

theorem turn_of_spoke {c : Client} {s : Stimulus} {line : Nat} {m : Machine} {content : Content}
    (up : c.line = some line) (same : m.state = c.state)
    (session : (Saying.of content).isSession = true)
    (state : c.state = .joined ∨ c.state = .authenticating ∧ Saying.of content = .pong)
    (hstep : c.step s =
      { c with machine := m, deeds := c.deeds.push (.send line content) }.retire) :
    c.TakesTurn s :=
  turn_of_eq [.send line content] (hstep.trans (retire_of_up up)) (by simp [log])
    (.spoke up session state same rfl rfl rfl)

theorem obey_send {c : Client} {line : Nat} (up : c.line = some line) (frame : SignalFrame) :
    c.obey [.send frame] = { c with deeds := c.deeds.push (.send line (.signal frame)) } := by
  simp [obey, performAll, perform, send_of_some up]

theorem obey_emit_send {c : Client} {line : Nat} (up : c.line = some line) (event : Event)
    (frame : SignalFrame) :
    c.obey [.emit event, .send frame] =
      { c with deeds := (c.deeds.push (.notify event)).push (.send line (.signal frame)) } := by
  simp [obey, performAll, perform, act, send, up]

theorem performAll_emits (events : List Event) (c : Client) :
    c.performAll (events.map .emit) = { c with deeds := c.deeds ++ events.map Deed.notify } := by
  induction events generalizing c with
  | nil => simp [performAll]
  | cons event rest ih =>
    show (c.act (.notify event)).performAll (rest.map .emit) = _
    rw [ih]
    simp [act]

/-- The machine has the line closed when it has told its last news. -/
theorem obey_farewell {c : Client} {line : Nat} (up : c.line = some line) (events : List Event) :
    c.obey (events.map .emit ++ [.closeTransport]) =
      { c with line := none, deeds := c.deeds ++ (events.map Deed.notify ++ [.close line]) } := by
  have hnever : ¬ Action.reconnect ∈ events.map Action.emit ++ [.closeTransport] := by simp
  have hperform : c.performAll (events.map .emit ++ [.closeTransport]) =
      (c.performAll (events.map .emit)).closeLine := by
    simp [performAll, perform]
  have still : (c.performAll (events.map .emit)).line = some line := by
    rw [performAll_emits, up]
  have hdeeds : (c.deeds ++ events.map Deed.notify).push (.close line) =
      c.deeds ++ (events.map Deed.notify ++ [.close line]) :=
    Array.toList_inj.mp (by simp)
  simp only [obey, List.contains_iff_mem, if_neg hnever]
  rw [hperform, closeLine_of_some still, performAll_emits, hdeeds]

/-- The machine has told its last news, and the client stops. -/
theorem turn_of_farewell {c : Client} {s : Stimulus} {line : Nat} {m : Machine}
    (events : List Event) (hphase : c.phase = .serving) (up : c.line = some line)
    (hover : m.state.isTerminal = true)
    (hstep : c.step s =
      (({ c with machine := m } : Client).obey (events.map .emit ++ [.closeTransport])).retire) :
    c.TakesTurn s := by
  have still : ({ c with machine := m } : Client).line = some line := up
  rw [obey_farewell still] at hstep
  refine turn_of_over (events.map .notify) [] hphase up ?_ hover hstep
  simp [Deed.isNews]

/-- Inputs that reach the machine over a line that stays open until the machine says otherwise. -/
theorem turn_drive {c : Client} {s : Stimulus} {line : Nat} (input : Machine.Input)
    (h : c.Settled) (hphase : c.phase = .serving) (up : c.line = some line)
    (notLeave : input ≠ .leave) (answer : input.IsJoinAck → s.IsJoinAck)
    (hstep : c.step s = (c.drive input).retire) : c.TakesTurn s := by
  have hstate : c.machine.state = .authenticating ∨ c.machine.state = .joined ∨
      c.machine.state = .closed := (h.serving hphase).2
  have hreact := Machine.reaction_step c.machine input
  simp only [drive] at hstep
  generalize c.machine.step input = result at hreact hstep
  obtain ⟨m, actions⟩ := result
  dsimp only at hreact hstep
  have still : ({ c with machine := m } : Client).line = some line := up
  cases hreact with
  | quiet hsame reports =>
    -- reports are only passed on, so no dial follows them
    obtain ⟨deeds, hreports, hdo⟩ := performAll_of_reports reports { c with machine := m }
    have hnever : ¬ Action.reconnect ∈ actions := fun hmem =>
      absurd (reports _ hmem) (by simp [Action.isReport])
    have hobey : ({ c with machine := m } : Client).obey actions =
        { c with machine := m, deeds := c.deeds ++ deeds } := by
      simp [obey, hdo, hnever]
    rw [hobey] at hstep
    exact turn_of_eq deeds (hstep.trans (retire_of_up up)) (by simp [log])
      (.still (by simp [hphase]) hsame rfl rfl rfl hreports)
  -- whoever serves is past these
  | begun hs => simp [hs] at hstate
  | joining hs => rcases hs with hs | hs <;> simp [hs] at hstate
  | submitted hs => simp [hs] at hstate
  | admitted hs hanswer hjoined =>
    rw [obey_emit_send still] at hstep
    exact turn_of_eq
      [.notify (.joined m.codec m.turn), .send line (.signal m.subscribeFrame)]
      (hstep.trans (retire_of_up up)) (by simp [log])
      (.admitted up hs (answer hanswer) rfl hjoined rfl rfl rfl)
  | answered id hlive =>
    have hpong : c.state = .joined ∨ c.state = .authenticating ∧
        Saying.of (.signal (Machine.pingPongFrame .pong id)) = .pong := by
      -- a closed client answers no sign of life
      rcases hstate with hs | hs | hs
      · exact .inr ⟨hs, rfl⟩
      · exact .inl hs
      · simp [hs, Lifecycle.isTerminal] at hlive
    rw [obey_send up] at hstep
    exact turn_of_spoke up rfl rfl hpong hstep
  | spoke frame hs hs' session =>
    rw [obey_send still] at hstep
    exact turn_of_spoke up (hs'.trans hs.symm) (by exact session) (.inl hs) hstep
  | lost hs =>
    rw [obey_reconnect, closeLine_of_some still] at hstep
    exact turn_of_lost up hs rfl hstep
  | failed reason hs => exact turn_of_farewell [.failed reason] hphase up rfl hstep
  | ended hs => exact turn_of_farewell [.closed] hphase up rfl hstep
  | released hs => exact turn_of_farewell [.leaveAcknowledged, .closed] hphase up rfl hstep
  | acknowledged hs =>
    exact turn_of_farewell [.leaveAcknowledged] hphase up (by rw [hs]; rfl) hstep
  | left hs => exact absurd rfl notLeave
  | withdrew hs hj => exact absurd rfl notLeave

/-- The other end has closed the line, or will say nothing more: the line is closed on this side
too, whatever the machine makes of it. -/
theorem turn_hungUp {c : Client} {s : Stimulus} {line : Nat} (input : Machine.Input)
    (h : c.Settled) (hphase : c.phase = .serving) (up : c.line = some line)
    (hinput : c.machine.step input = c.machine.transportLost ∨
      c.machine.state.isTerminal = false ∧ ∃ reason, c.machine.step input = c.machine.fail reason)
    (hstep : c.step s = (c.closeLine.drive input).retire) :
    c.TakesTurn s := by
  have hstate : c.machine.state = .authenticating ∨ c.machine.state = .joined ∨
      c.machine.state = .closed := (h.serving hphase).2
  rw [closeLine_of_some up] at hstep
  simp only [drive] at hstep
  rcases hinput with hlost | ⟨hlive, reason, hfail⟩
  · rw [hlost] at hstep
    cases htransport : c.machine.state.hasTransport with
    | true =>
      rw [Machine.transportLost_of_hasTransport htransport, obey_reconnect,
        closeLine_of_none rfl] at hstep
      exact turn_of_lost up htransport rfl hstep
    | false =>
      -- only a closed client serves without minding whether its line is lost
      have hclosed : c.machine.state = .closed := by
        rcases hstate with hs | hs | hs <;> simp_all [Lifecycle.hasTransport]
      rw [Machine.transportLost_of_not_hasTransport htransport] at hstep
      refine turn_of_over [] [] hphase up (by simp) (m := c.machine) (by rw [hclosed]; rfl) ?_
      simpa [obey, performAll] using hstep
  · rw [hfail, Machine.fail_of_live hlive] at hstep
    refine turn_of_over [] [.notify (.failed reason)] hphase up (by simp [Deed.isNews])
      (m := { c.machine with state := .failed }) rfl ?_
    simpa [obey, performAll, perform, act, closeLine] using hstep

theorem turn_heard {c : Client} (h : c.Settled) (hphase : c.phase = .serving)
    (event : Option LinkEvent) (now : Instant) :
    c.TakesTurn (.heard event now) := by
  obtain ⟨⟨line, up⟩, -⟩ := h.serving hphase
  have hstep : c.step (.heard event now) = (c.heard now event).retire := by
    simp [step, hphase, serve, up]
  match event with
  | none =>
    exact turn_hungUp .transportLost h hphase up (.inl rfl) hstep
  | some (.disconnected code) =>
    exact turn_hungUp (.transportClosed code) h hphase up
      (Machine.transportClosed_cases c.machine code) hstep
  | some (.message bytes) => exact turn_drive (.message bytes now) h hphase up (by simp) id hstep
  | some .connected =>
    refine turn_of_ignored (by simp [hphase]) ?_
    rw [hstep]
    exact retire_of_up up

/-- The answer to its join never goes past a client that waits for it. -/
theorem turn_of_isJoinAck {c : Client} {s : Stimulus} {line : Nat} (h : c.Settled)
    (up : c.line = some line) (waits : c.state = .authenticating) (answer : s.IsJoinAck) :
    ∃ event frame, Saying.ofFrame frame = .subscribe ∧
      c.deedsOf s = [.notify event, .send line (.signal frame)] ∧ (c.step s).state = .joined ∧
      (c.step s).line = some line ∧ (c.step s).taken = c.taken := by
  have hphase := h.serving_of_line up
  match s, answer with
  | .heard (some (.message bytes)) now, answer =>
    have hstep : c.step (.heard (some (.message bytes)) now) =
        (c.drive (.message bytes now)).retire := by
      simp [step, hphase, serve, up, heard]
    obtain ⟨hjoined, hactions⟩ :=
      Machine.step_of_isJoinAck (.message bytes now) waits answer
    simp only [drive] at hstep
    generalize c.machine.step (.message bytes now) = result at hjoined hactions hstep
    obtain ⟨m, actions⟩ := result
    dsimp only at hjoined hactions hstep
    have still : ({ c with machine := m } : Client).line = some line := up
    rw [hactions, obey_emit_send still] at hstep
    have hnext := hstep.trans (retire_of_up up)
    refine ⟨.joined m.codec m.turn, m.subscribeFrame, rfl, deedsOf_eq ?_, ?_⟩
    · rw [hnext]
      simp [log]
    · rw [hnext]
      exact ⟨hjoined, up, rfl⟩

/-- Unless it is joined nothing will answer a client that leaves, and it closes its line itself. -/
theorem turn_leave {c : Client} (h : c.Settled) (hphase : c.phase = .serving) :
    c.TakesTurn (.command .leave) := by
  obtain ⟨⟨line, up⟩, hstate⟩ := h.serving hphase
  have hstep : c.step (.command .leave) = c.leave.retire := by
    simp [step, hphase, serve, obeyCommand]
  rcases hstate with hs | hs | hs
  -- not joined yet
  · have hlive : c.machine.state.isTerminal = false := by simp_all [state, Lifecycle.isTerminal]
    have hnotJoined : c.machine.state ≠ .joined := by simp_all [state]
    have hleave : c.leave =
        ({ c with machine := { c.machine with state := .closed } } : Client).obey
          ([Event.closed].map .emit ++ [.closeTransport]) := by
      simp [leave, Machine.step, Machine.requestLeave_of_live hlive hnotJoined, hs,
        Lifecycle.isJoined]
    rw [hleave] at hstep
    exact turn_of_farewell [.closed] hphase up rfl hstep
  -- joined
  · have hleave : c.leave =
        { c with
          machine := { c.machine with state := .closed }
          deeds := (c.deeds.push (.send line (.signal Machine.leaveFrame))).push
            (.notify .closed) } := by
      have hjoined : c.machine.state = .joined := hs
      simp [leave, Machine.step, Machine.requestLeave_of_joined hjoined, hs, Lifecycle.isJoined,
        obey, performAll, perform, act, send, up]
    rw [hleave] at hstep
    refine turn_of_eq [.send line (.signal Machine.leaveFrame), .notify .closed]
      (hstep.trans (retire_of_up up)) (by simp [log]) ?_
    exact .left up hs rfl rfl rfl rfl
  -- it has left already
  · have hover : c.machine.state.isTerminal = true := by simp_all [state, Lifecycle.isTerminal]
    refine turn_of_ignored (by simp [hphase]) ?_
    have hleave : c.leave = c := by
      simp [leave, Machine.step, Machine.requestLeave_of_isTerminal hover, obey, performAll]
    rw [hstep, hleave]
    exact retire_of_up up

theorem turn_media {c : Client} (h : c.Settled) (hphase : c.phase = .serving) (packet : Octets) :
    c.TakesTurn (.media packet) := by
  obtain ⟨⟨line, up⟩, -⟩ := h.serving hphase
  have hstep : c.step (.media packet) = (c.sendMedia packet).retire := by
    simp [step, hphase, serve]
  by_cases hjoined : c.state.isJoined = true
  · have hs : c.state = .joined := Machine.joined_of_isJoined hjoined
    simp only [sendMedia, hjoined, if_true, send_of_some up] at hstep
    exact turn_of_spoke up rfl rfl (.inl hs) hstep
  · refine turn_of_ignored (by simp [hphase]) ?_
    rw [hstep, sendMedia, if_neg hjoined]
    exact retire_of_up up

theorem turn_stop_of_serving {c : Client} (h : c.Settled) (hphase : c.phase = .serving) :
    c.TakesTurn .stop := by
  obtain ⟨⟨line, up⟩, -⟩ := h.serving hphase
  have hstep : c.step .stop =
      { c with phase := .stopped, line := none, deeds := c.deeds.push (.close line) } := by
    simp [step, hphase, serve, halt, closeLine_of_some up, retire]
  refine turn_of_eq ([] ++ .close line :: []) hstep (by simp [log]) ?_
  exact .ended up (by simp) rfl rfl rfl

theorem turn_command {c : Client} (h : c.Settled) (hphase : c.phase = .serving)
    (command : Command) :
    c.TakesTurn (.command command) := by
  obtain ⟨⟨line, up⟩, -⟩ := h.serving hphase
  have hstep : c.step (.command command) = (c.obeyCommand command).retire := by
    simp [step, hphase, serve]
  cases command with
  | leave => exact turn_leave h hphase
  | setMute | sendDataMessage | resubscribe =>
    refine turn_drive _ h hphase up ?_ ?_ hstep
    · simp [Command.input]
    · simp [Machine.Input.IsJoinAck, Command.input]

/-! ## The list is complete -/

theorem turn_of_serving {c : Client} (h : c.Settled) (hphase : c.phase = .serving)
    (s : Stimulus) : c.TakesTurn s := by
  obtain ⟨⟨line, up⟩, -⟩ := h.serving hphase
  cases s with
  | heard event now => exact turn_heard h hphase event now
  | command command => exact turn_command h hphase command
  | media packet => exact turn_media h hphase packet
  | pingDue =>
    refine turn_drive .ping h hphase up (by simp) (by simp [Machine.Input.IsJoinAck]) ?_
    simp [step, hphase, serve]
  | stop => exact turn_stop_of_serving h hphase
  | begin | waited | dialed =>
    refine turn_of_ignored (by simp [hphase]) ?_
    simp only [step, hphase, serve]
    exact retire_of_up up

/-- **The list is complete**: whatever it is told, a settled client does one of these things. -/
theorem turn_step {c : Client} (h : c.Settled) (s : Stimulus) :
    c.TakesTurn s := by
  -- in each phase the stimuli that do not fit it are ignored
  cases hphase : c.phase with
  | idle =>
    cases s with
    | begin => exact turn_begin h hphase
    | _ => exact turn_of_ignored (by simp [hphase]) (by simp [step, hphase])
  | waiting attempt =>
    cases s with
    | waited => exact turn_waited h hphase
    | stop => exact turn_stop_of_connecting h (by simp [isConnecting, hphase])
    | _ => exact turn_of_ignored (by simp [hphase]) (by simp [step, hphase])
  | dialing attempt =>
    cases s with
    | dialed outcome =>
      by_cases hup : outcome = .opened (some .connected)
      · subst hup
        exact turn_dialed_of_up h hphase
      · exact turn_dialed_of_down h hphase hup
    | stop => exact turn_stop_of_connecting h (by simp [isConnecting, hphase])
    | _ => exact turn_of_ignored (by simp [hphase]) (by simp [step, hphase])
  | serving => exact turn_of_serving h hphase s
  | stopped => exact turn_of_ignored (by simp [hphase]) (by cases s <;> simp [step, hphase])

theorem Turn.settled {c next : Client} {s : Stimulus} {deeds : List Deed} (h : c.Settled)
    (turn : Turn c s next deeds) : next.Settled := by
  cases turn with
  | still _ hs hp hl _ _ => simpa only [Settled, hs, hp, hl] using h
  | began _ hs hp hl _ => simp [Settled, hs, hp, hl]
  | redialed hphase hs hp hl _ =>
    have hstate := (h.connecting (by simp [isConnecting, hphase])).2
    simpa [Settled, hs, hp, hl] using hstate
  | missed hphase _ _ hs hp hl _ =>
    have hstate := (h.connecting (by simp [isConnecting, hphase])).2
    simpa [Settled, hs, hp, hl] using hstate
  | gaveUp _ _ _ _ hp hl _ => simp [Settled, hp, hl]
  | connected _ hs hp hl _ => simp [Settled, hs, hp, hl]
  | withdrew _ _ hp hl _ => simp [Settled, hp, hl]
  | spoke _ _ _ hs hp hl _ => simpa only [Settled, hs, hp, hl] using h
  | admitted up hstate _ _ hs hp hl _ =>
    cases hphase : c.phase <;> simp_all [Settled]
  | lost _ _ _ hs hp hl _ => simp [Settled, hs, hp, hl]
  | lostForGood _ _ _ _ hp hl _ => simp [Settled, hp, hl]
  | ended _ _ hp hl _ => simp [Settled, hp, hl]
  | left up hstate hs hp hl _ =>
    cases hphase : c.phase <;> simp_all [Settled]

/-! ## Runs -/

theorem run_concat (c : Client) (stimuli : List Stimulus) (s : Stimulus) :
    c.run (stimuli ++ [s]) = (c.run stimuli).step s := by
  simp [run]

theorem settled_new (policy : ReconnectPolicy) (descriptor : Descriptor) (config : SignalingConfig)
    (offerId : UInt64) (visits : VideoSources.Visits) :
    (new policy (.new descriptor config offerId visits)).Settled :=
  ⟨rfl, rfl⟩

theorem settled_run {c : Client} (h : c.Settled) (stimuli : List Stimulus) :
    (c.run stimuli).Settled := by
  induction stimuli using List.reverseRecOn with
  | nil => exact h
  | append_singleton stimuli s ih =>
    rw [run_concat]
    exact (turn_step ih s).2.settled ih

theorem log_step {c : Client} (h : c.Settled) (s : Stimulus) :
    (c.step s).log = c.log ++ c.deedsOf s :=
  (turn_step h s).1

end Client

end Parley
