import Mathlib.Data.List.DropRight
import Parley.Proofs.Signaling.Course

/-!
# `Parley/Proofs/Signaling/Keepalive.lean` — a connection is given up after three unanswered pings

A joined client asks for a sign of life at each tick, and gives the connection up at the tick at
which three of its pings are unanswered. Unanswered are the pings of a run since the client was last
let in or last heard from the service, whichever is later (`unanswered`): so they are pings of the
connection that the client is on, and any answer in time makes good for all of them. The counter of
the machine agrees with that in every joined state (`Counted`); it is at zero whenever the client is
to be let in, so nothing has to be said of other connections.
-/

set_option autoImplicit false

namespace Parley

open Parley.Wire

/-- The number of the ping that an action sends, if it sends one. -/
def Action.pingId? : Action → Option UInt32
  | .send frame =>
    if Saying.ofFrame frame = .ping then frame.pingPong.map (·.pingId) else none
  | _ => none

def pingsIn (actions : List Action) : List UInt32 := actions.filterMap Action.pingId?

def Action.isLetIn : Action → Bool
  | .emit (.joined _ _) => true
  | _ => false

theorem Action.isLetIn_eq_false {a : Action} (h : a.isMark = false ∨ a.isSourceNews = true) :
    a.isLetIn = false := by
  cases a with
  | emit event =>
    cases event with
    | joined => exact absurd h (by simp [Action.isMark, Action.isSourceNews])
    | _ => rfl
  | _ => rfl

/-- A frame that gives a sign of life has a body that says so. -/
theorem Saying.ofFrame_eq_pong {frame : SignalFrame} (h : ofFrame frame = .pong) :
    FrameKind.ofNumber? frame.kind = some .pingPong ∧
      ∃ f, frame.pingPong = some f ∧ PingPongKind.ofNumber? f.kind = some .pong := by
  unfold ofFrame at h
  split at h <;> try exact absurd h (by decide)
  rename_i hkind
  split at h <;> try exact absurd h (by decide)
  rename_i hbody
  exact ⟨hkind, Option.bind_eq_some_iff.mp hbody⟩

theorem Action.pingId?_eq_none {a : Action} (h : a.isMark = false ∨ a.isSourceNews = true) :
    a.pingId? = none := by
  cases a with
  | send frame =>
    have hping : Saying.ofFrame frame ≠ .ping := by
      simpa [Action.isMark, Action.isSourceNews] using h
    simp [Action.pingId?, hping]
  | _ => rfl

namespace Machine

/-! ## The pings of a run -/

/-- Whether the service shows at this moment that it is there: it lets the client in, or gives a
sign of life. A session that is over takes none in. -/
def Moment.isSign (t : Moment) : Bool :=
  t.actions.any Action.isLetIn || (t.input.isPong && !t.machine.state.isTerminal)

/-- The numbers of the pings sent, the earliest first. -/
def pingsSent (course : List Moment) : List UInt32 := pingsIn (course.flatMap Moment.actions)

/-- The pings sent since the service last showed that it is there. -/
def unanswered (course : List Moment) : List UInt32 := pingsSent (course.rtakeWhile (!·.isSign))

variable {m : Machine} {course : List Moment} {t : Moment}

theorem pingsSent_concat (course : List Moment) (t : Moment) :
    pingsSent (course ++ [t]) = pingsSent course ++ pingsIn t.actions := by
  simp [pingsSent, pingsIn, List.filterMap_append]

theorem unanswered_of_isSign (h : t.isSign = true) : unanswered (course ++ [t]) = [] := by
  rw [unanswered, List.rtakeWhile_concat_neg _ _ _ (by simp [h])]
  rfl

theorem unanswered_of_not_isSign (h : t.isSign = false) :
    unanswered (course ++ [t]) = unanswered course ++ pingsIn t.actions := by
  rw [unanswered, List.rtakeWhile_concat_pos _ _ _ (by simp [h]), pingsSent_concat, ← unanswered]

/-! ## One step -/

theorem step_of_isPong {input : Input} (live : m.state.isTerminal = false)
    (h : input.isPong = true) : m.step input = ({ m with outstandingPings := 0 }, []) := by
  cases input with
  | message bytes now =>
    simp only [Input.isPong] at h
    split at h
    · rename_i frame hdecode
      obtain ⟨hkind, f, hbody, hpong⟩ := Saying.ofFrame_eq_pong (by simpa using h)
      have hlive : ignores m.state .pingPong = false := by
        cases hs : m.state with
        | closed | failed => exact absurd live (by simp [hs, Lifecycle.isTerminal])
        | _ => rfl
      simp [step, onMessage, hdecode, onSignal, hkind, hlive, onFrame, withBody, hbody, onPingPong,
        hpong]
    · exact absurd h (by simp)
  | _ => exact absurd h (by simp [Input.isPong])

theorem isSign_eq_false (h : ∀ a ∈ t.actions, a.isLetIn = false)
    (unheard : ¬ (t.input.isPong = true ∧ t.machine.state.isTerminal = false)) :
    t.isSign = false := by
  rw [Moment.isSign, Bool.or_eq_false_iff]
  refine ⟨List.any_eq_false.mpr fun a ha => by simp [h a ha], ?_⟩
  by_contra hsign
  exact unheard (by simpa using hsign)

/-- What a machine counts of its pings, against those of its past. -/
structure Counted (course : List Moment) (m : Machine) : Prop where
  joined : m.state = .joined → m.outstandingPings = (unanswered course).length
  waiting : m.state.isTerminal = false → m.state ≠ .joined → m.outstandingPings = 0
  few : m.outstandingPings ≤ maxMissedPings
  numbered : m.lastPingId = (pingsSent course).getLast?.getD 0

theorem counted_new (descriptor : Descriptor) (config : SignalingConfig) (offerId : UInt64)
    (visits : VideoSources.Visits) :
    Counted [] (new descriptor config offerId visits) :=
  ⟨nofun, fun _ _ => rfl, Nat.zero_le _, rfl⟩

theorem Counted.numbered_of_none (h : Counted course t.machine) (hpings : pingsIn t.actions = [])
    {next : Machine} (hnumber : next.lastPingId = t.machine.lastPingId) :
    next.lastPingId = (pingsSent (course ++ [t])).getLast?.getD 0 := by
  rw [pingsSent_concat, hpings, List.append_nil, hnumber]
  exact h.numbered

theorem Counted.ponged (h : Counted course t.machine) (live : t.machine.state.isTerminal = false)
    (pong : t.input.isPong = true) : Counted (course ++ [t]) t.next := by
  have hstep := step_of_isPong live pong
  have hnext : t.next = { t.machine with outstandingPings := 0 } := congrArg Prod.fst hstep
  have hactions : t.actions = [] := congrArg Prod.snd hstep
  have hsign : t.isSign = true := by simp [Moment.isSign, pong, live]
  rw [hnext]
  constructor
  case joined =>
    intro _
    rw [unanswered_of_isSign hsign]
    rfl
  case waiting => exact fun _ _ => rfl
  case few => exact Nat.zero_le _
  case numbered => exact h.numbered_of_none (by rw [hactions]; rfl) rfl

/-- A moment at which no ping goes out and the service does not show that it is there leaves the
count as it is. -/
theorem Counted.aside (h : Counted course t.machine)
    (unheard : ¬ (t.input.isPong = true ∧ t.machine.state.isTerminal = false))
    (hactions : ∀ a ∈ t.actions, a.isMark = false ∨ a.isSourceNews = true)
    (hcount : t.next.outstandingPings = t.machine.outstandingPings)
    (hnumber : t.next.lastPingId = t.machine.lastPingId)
    (hjoined : t.next.state.isTerminal = false →
      (t.next.state = .joined ↔ t.machine.state = .joined)) : Counted (course ++ [t]) t.next := by
  have hsign : t.isSign = false :=
    isSign_eq_false (fun a ha => Action.isLetIn_eq_false (hactions a ha)) unheard
  have hpings : pingsIn t.actions = [] :=
    List.filterMap_eq_nil_iff.mpr fun a ha => Action.pingId?_eq_none (hactions a ha)
  constructor
  case joined =>
    intro hnext
    rw [unanswered_of_not_isSign hsign, hpings, List.append_nil, hcount]
    exact h.joined ((hjoined (by rw [hnext]; rfl)).mp hnext)
  case waiting =>
    intro hlive hnot
    rw [hcount]
    exact h.waiting (Moment.isTerminal_of_next hlive) (hnot ∘ (hjoined hlive).mpr)
  case few => exact hcount ▸ h.few
  case numbered => exact h.numbered_of_none hpings hnumber

/-- A moment that leaves the client without a connection has nothing left to count. -/
theorem Counted.apart (h : Counted course t.machine) (hpings : pingsIn t.actions = [])
    (hcount : t.next.outstandingPings = 0) (hnumber : t.next.lastPingId = t.machine.lastPingId)
    (hstate : t.next.state ≠ .joined) : Counted (course ++ [t]) t.next := by
  constructor
  case joined => exact fun hnext => absurd hnext hstate
  case waiting => exact fun _ _ => hcount
  case few => exact hcount ▸ Nat.zero_le _
  case numbered => exact h.numbered_of_none hpings hnumber

theorem Counted.letIn (h : Counted course t.machine) (state : t.machine.state = .authenticating)
    (hsign : t.isSign = true) (hpings : pingsIn t.actions = [])
    (hcount : t.next.outstandingPings = t.machine.outstandingPings)
    (hnumber : t.next.lastPingId = t.machine.lastPingId) : Counted (course ++ [t]) t.next := by
  have hzero : t.next.outstandingPings = 0 := by
    rw [hcount]
    exact h.waiting (by rw [state]; rfl) (by rw [state]; decide)
  constructor
  case joined =>
    intro _
    rw [unanswered_of_isSign hsign, hzero]
    rfl
  case waiting => exact fun _ _ => hzero
  case few => exact hzero ▸ Nat.zero_le _
  case numbered => exact h.numbered_of_none hpings hnumber

theorem Counted.pinged (h : Counted course t.machine) (state : t.machine.state = .joined)
    (few : t.machine.outstandingPings < maxMissedPings) (hsign : t.isSign = false)
    (hnext : t.next = { t.machine with
      outstandingPings := t.machine.outstandingPings + 1
      lastPingId := t.machine.lastPingId + 1 })
    (hpings : pingsIn t.actions = [t.machine.lastPingId + 1]) :
    Counted (course ++ [t]) t.next := by
  rw [hnext]
  constructor
  case joined =>
    intro _
    rw [unanswered_of_not_isSign hsign, hpings, List.length_append, List.length_singleton,
      ← h.joined state]
  case waiting => exact fun _ hnot => absurd state hnot
  case few => exact few
  case numbered =>
    rw [pingsSent_concat, hpings, List.getLast?_concat]
    rfl

theorem Counted.step (h : Counted course t.machine) : Counted (course ++ [t]) t.next := by
  by_cases hponged : t.input.isPong = true ∧ t.machine.state.isTerminal = false
  · exact h.ponged hponged.2 hponged.1
  have hbearing := bearing_next t
  generalize hnext : t.next = next at hbearing
  generalize hactions : t.actions = actions at hbearing
  rw [← hnext]
  cases hbearing with
  | aside standing joined unmarked =>
    rw [← hnext] at standing joined
    rw [← hactions] at unmarked
    exact h.aside hponged (fun a ha => .inl (unmarked a ha))
      (congrArg Standing.outstandingPings standing) (congrArg Standing.lastPingId standing) joined
  | letIn ack now state answer =>
    refine h.letIn state ?_ ?_ ?_ ?_
    · simp [Moment.isSign, hactions, Action.isLetIn]
    · rw [hactions]
      rfl
    · rw [hnext]
    · rw [hnext]
  | indexed index now brings admits =>
    refine h.aside hponged (fun a ha => .inr ?_) ?_ ?_ (fun _ => ?_)
    · rw [hactions] at ha
      exact isSourceNews_indexNews _ index now a ha
    · rw [hnext]
    · rw [hnext]
    · rw [hnext]
  | ponged pong =>
    -- a sign of life that is not taken in: the session is over
    have hend : t.machine.state.isTerminal = true := by
      cases hs : t.machine.state.isTerminal with
      | true => rfl
      | false => exact absurd ⟨pong, hs⟩ hponged
    refine h.apart ?_ ?_ ?_ ?_
    · rw [hactions]
      rfl
    · rw [hnext]
    · rw [hnext]
    · rw [hnext]
      intro hs
      exact absurd (hs ▸ hend) (by decide)
  | pinged state few =>
    refine h.pinged state few (isSign_eq_false ?_ hponged) hnext ?_
    · rw [hactions]
      exact List.forall_mem_singleton.mpr rfl
    · rw [hactions]
      rfl
  | lost state =>
    refine h.apart ?_ ?_ ?_ ?_
    · rw [hactions]
      rfl
    · rw [hnext]
    · rw [hnext]
    · rw [hnext]
      simp

theorem counted_run (descriptor : Descriptor) (config : SignalingConfig) (offerId : UInt64)
    (visits : VideoSources.Visits) (inputs : List Input) :
    Counted ((new descriptor config offerId visits).moments inputs)
      ((new descriptor config offerId visits).run inputs).1 :=
  moments_induction (counted_new descriptor config offerId visits) (fun _ _ => Counted.step) inputs

/-- **A connection is given up after three unanswered pings**, and not before. Whatever has been done
with a new machine, a tick makes a joined client give up its connection exactly if three pings were
sent since it was last let in or the service last gave a sign of life; if not, it sends one ping, of
the next number after the last, in a word, beginning with 1. A client that is not joined does nothing
at a tick. -/
theorem gives_up_after_three (descriptor : Descriptor) (config : SignalingConfig)
    (offerId : UInt64) (visits : VideoSources.Visits) (past : List Input) :
    let m := ((new descriptor config offerId visits).run past).1
    let course := (new descriptor config offerId visits).moments past
    (m.state = .joined →
      ((m.step .ping).2 = [.reconnect] ∧ (m.step .ping).1.state = .reconnecting ↔
        (unanswered course).length = 3) ∧
      ((unanswered course).length ≠ 3 →
        (m.step .ping).1.state = .joined ∧
        (m.step .ping).2 =
          [.send (pingPongFrame .ping ((pingsSent course).getLast?.getD 0 + 1))])) ∧
    (m.state ≠ .joined → m.step .ping = (m, [])) := by
  intro m course
  have h : Counted course m := counted_run descriptor config offerId visits past
  refine ⟨fun joined => ?_, ping_of_not_joined⟩
  rw [← h.joined joined, ← h.numbered]
  show (m.ping.2 = _ ∧ m.ping.1.state = _ ↔ _) ∧ (_ → m.ping.1.state = _ ∧ m.ping.2 = _)
  rcases Nat.lt_or_ge m.outstandingPings maxMissedPings with few | many
  · have hne : m.outstandingPings ≠ 3 := Nat.ne_of_lt few
    rw [ping_of_few joined few]
    exact ⟨⟨fun hlost => absurd hlost.1 (by simp), fun heq => absurd heq hne⟩,
      fun _ => ⟨joined, rfl⟩⟩
  · have heq : m.outstandingPings = 3 := Nat.le_antisymm h.few many
    rw [ping_of_many joined many]
    exact ⟨⟨fun _ => heq, fun _ => ⟨rfl, rfl⟩⟩, fun hne => absurd heq hne⟩

/-- Three pings of a connection that was lost are not counted against the next one. -/
theorem gives_up_after_three_of_return :
    let descriptor : Descriptor :=
      { meetingId := "m", externalMeetingId := "", credentials := ⟨"a", "", "t"⟩
        audioHostUrl := "", signalingUrl := ⟨"ws://h", by decide⟩ }
    let joinAck : Input := .message [0x02, 0x08, 0x00, 0x10, 0x02] 0
    let past : List Input :=
      [.start, .transportUp, joinAck, .ping, .ping, .ping, .transportLost, .transportUp, joinAck,
        .ping]
    let m := ((new descriptor {} 0).run past).1
    m.state = .joined ∧ (unanswered ((new descriptor {} 0).moments past)).length = 1 ∧
      (m.step .ping).2 = [.send (pingPongFrame .ping 5)] := by
  intro descriptor joinAck past m
  have joined : m.state = .joined := by decide +kernel
  have one : (unanswered ((new descriptor {} 0).moments past)).length = 1 := by decide +kernel
  have sent : pingsSent ((new descriptor {} 0).moments past) = [1, 2, 3, 4] := by decide +kernel
  obtain ⟨-, hping⟩ := (gives_up_after_three descriptor {} 0 (fun _ => .asKept) past).1 joined
  have hactions := (hping (by rw [one]; decide)).2
  rw [sent] at hactions
  exact ⟨joined, one, hactions⟩

end Machine

end Parley
