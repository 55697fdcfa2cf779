import Parley.Meeting.Handshake
import Parley.Proofs.Client.Turn
import Parley.Proofs.Signaling.Secrecy

/-!
# `Parley/Proofs/Client/Secrecy.lean` — where the join token goes

Two clients whose descriptors differ in nothing but the join token do the same, whatever happens to
them: they dial, wait, send and tell the same, so that not a byte that goes over a line depends on
the token (`Client.Follows.run`). The order in which they tell of sources that are withdrawn is up to
how each of them goes through its sources, and not to the token either. Nor does a description of a
descriptor or of a handshake depend on it. The one thing that does is the cookie of the handshake,
which is made of the token (`token_in_cookie_alone`).
-/

set_option autoImplicit false

namespace Parley

/-! ## A client under another token -/

/-- Whether two deeds are the same, but for how an event is told. -/
inductive Deed.Alike : Deed → Deed → Prop where
  | same (d : Deed) : Deed.Alike d d
  | notify {e e' : Event} (told : e.Alike e') : Deed.Alike (.notify e) (.notify e')

theorem Deed.Alike.isNews_eq {d d' : Deed} (h : d.Alike d') : d'.isNews = d.isNews := by
  cases h <;> rfl

theorem Deed.Alike.eq_of_not_isNews {d d' : Deed} (h : d.Alike d') (plain : d.isNews = false) :
    d' = d := by
  cases h with
  | same => rfl
  | notify => cases plain

/-- What is done apart from telling news is the same. -/
theorem filter_isNews_of_alike {deeds deeds' : List Deed}
    (h : List.Forall₂ Deed.Alike deeds deeds') :
    deeds'.filter (!·.isNews) = deeds.filter (!·.isNews) := by
  induction h with
  | nil => rfl
  | @cons d d' _ _ halike _ ih =>
    cases hnews : d.isNews with
    | true =>
      have hnews' : d'.isNews = true := halike.isNews_eq.trans hnews
      simp [hnews, hnews', ih]
    | false =>
      obtain rfl := halike.eq_of_not_isNews hnews
      simp [hnews, ih]

/-- Whether the line is to be dropped shows in every list of actions that is alike. -/
theorem contains_reconnect_of_alike {actions actions' : List Action}
    (h : List.Forall₂ Action.Alike actions actions') :
    actions'.contains .reconnect = actions.contains .reconnect := by
  induction h with
  | nil => rfl
  | cons halike _ ih =>
    simp only [List.contains_cons, ih]
    cases halike <;> rfl

namespace Client

/-- A client `d` follows another one if it is the same under another token, has done the same, and
goes through its sources in the same ways if the case is `common`. -/
structure Follows (token : String) (common : Prop) (c d : Client) : Prop where
  machine : d.machine = c.machine.disguise token d.machine.visits
  visits : common → d.machine.visits = c.machine.visits
  policy : d.policy = c.policy
  phase : d.phase = c.phase
  line : d.line = c.line
  taken : d.taken = c.taken
  deeds : Agree Deed.Alike common c.log d.log

namespace Follows

variable {token : String} {common : Prop} {c d : Client} (h : c.Follows token common d)
include h

theorem state : d.state = c.state := by
  show d.machine.state = c.machine.state
  rw [h.machine]
  rfl

/-! ### What changes no more than a field -/

theorem inPhase (phase : Phase) :
    Follows token common { c with phase } { d with phase } :=
  ⟨h.machine, h.visits, h.policy, rfl, h.line, h.taken, h.deeds⟩

theorem onLine (line : Option Nat) :
    Follows token common { c with line } { d with line } :=
  ⟨h.machine, h.visits, h.policy, h.phase, rfl, h.taken, h.deeds⟩

theorem counting (taken : Nat) :
    Follows token common { c with taken } { d with taken } :=
  ⟨h.machine, h.visits, h.policy, h.phase, h.line, rfl, h.deeds⟩

theorem act {deed deed' : Deed} (halike : deed.Alike deed') (hsame : common → deed' = deed) :
    (c.act deed).Follows token common (d.act deed') := by
  have hlog (c : Client) (deed : Deed) : (c.act deed).log = c.log ++ [deed] := by
    simp [Client.act, log]
  refine ⟨h.machine, h.visits, h.policy, h.phase, h.line, h.taken, ?_⟩
  rw [hlog, hlog]
  exact h.deeds.append (.single halike hsame)

theorem does (deed : Deed) : (c.act deed).Follows token common (d.act deed) :=
  h.act (.same deed) fun _ => rfl

theorem closeLine : c.closeLine.Follows token common d.closeLine := by
  unfold Client.closeLine
  rw [h.line]
  cases c.line with
  | none => exact h
  | some line => exact (h.onLine none).does (.close line)

theorem send (content : Wire.Content) :
    (c.send content).Follows token common (d.send content) := by
  unfold Client.send
  rw [h.line]
  cases c.line with
  | none => exact h
  | some line => exact h.does (.send line content)

/-! ### Obeying the machine -/

theorem reacts (input : Machine.Input) :
    Machine.Agrees Action.Alike token common (c.machine.step input) (d.machine.step input) := by
  have hstep := Machine.blind_step input c.machine token d.machine.visits
  rw [← h.machine] at hstep
  exact ⟨hstep.next, fun hc => hstep.visits (h.visits hc), hstep.actions.mono h.visits⟩

theorem moved (input : Machine.Input) :
    Follows token common { c with machine := (c.machine.step input).1 }
      { d with machine := (d.machine.step input).1 } :=
  have hreacts := h.reacts input
  ⟨hreacts.next, hreacts.visits, h.policy, h.phase, h.line, h.taken, h.deeds⟩

theorem perform {a a' : Action} (halike : a.Alike a') (hsame : common → a' = a) :
    (c.perform a).Follows token common (d.perform a') := by
  cases halike with
  | same =>
    cases a with
    | send frame => exact h.send (.signal frame)
    | emit event => exact h.does (.notify event)
    | deliver packet => exact h.does (.deliver packet)
    | closeTransport | reconnect => exact h.closeLine
  | emit told =>
    exact h.act (.notify told) fun hc => congrArg Deed.notify (Action.emit.inj (hsame hc))

theorem performAll {actions actions' : List Action}
    (hactions : Agree Action.Alike common actions actions') :
    (c.performAll actions).Follows token common (d.performAll actions') := by
  obtain ⟨halike, hsame⟩ := hactions
  induction halike generalizing c d with
  | nil => exact h
  | cons ha _ ih =>
    exact ih (h.perform ha fun hc => (List.cons.inj (hsame hc)).1)
      fun hc => (List.cons.inj (hsame hc)).2

theorem giveUp : c.giveUp.Follows token common d.giveUp := by
  have hattempts : d.policy.maxAttempts = c.policy.maxAttempts := by rw [h.policy]
  let spent : Machine.Input := .reconnectExhausted c.policy.maxAttempts
  unfold Client.giveUp
  rw [hattempts]
  exact ((h.moved spent).inPhase .serving).performAll (h.reacts spent).actions

theorem redial (attempt : Nat) : (c.redial attempt).Follows token common (d.redial attempt) := by
  have hdelay : d.policy.delayFor attempt = c.policy.delayFor attempt := by rw [h.policy]
  unfold Client.redial
  rw [hdelay]
  cases c.policy.delayFor attempt with
  | some delay => exact (h.inPhase (.waiting attempt)).does (.wait delay)
  | none => exact h.giveUp

theorem dial (attempt : Nat) : (c.dial attempt).Follows token common (d.dial attempt) :=
  (h.inPhase (.dialing attempt)).does .dial

theorem obey {actions actions' : List Action}
    (hactions : Agree Action.Alike common actions actions') :
    (c.obey actions).Follows token common (d.obey actions') := by
  have hdone := h.performAll hactions
  unfold Client.obey
  rw [contains_reconnect_of_alike hactions.alike]
  split
  · exact hdone.redial 1
  · exact hdone

theorem drive (input : Machine.Input) :
    (c.drive input).Follows token common (d.drive input) :=
  (h.moved input).obey (h.reacts input).actions

/-! ### Stimuli -/

theorem start : c.start.Follows token common d.start := (h.drive .start).dial 0

theorem dialed (attempt : Nat) (outcome : DialOutcome) :
    (c.dialed attempt outcome).Follows token common (d.dialed attempt outcome) := by
  cases outcome with
  | refused | timedOut => exact h.redial (attempt + 1)
  | opened first =>
    have htaken := (h.counting (c.taken + 1)).does (.take c.taken)
    simp only [Client.dialed, h.taken]
    split
    · exact ((htaken.onLine (some c.taken)).inPhase .serving).drive .transportUp
    · exact (htaken.does (.close c.taken)).redial (attempt + 1)

theorem leave : c.leave.Follows token common d.leave := by
  have hreacts := (h.reacts .leave).actions
  have hempty : (d.machine.step .leave).2.isEmpty = (c.machine.step .leave).2.isEmpty := by
    rw [Bool.eq_iff_iff, List.isEmpty_iff_length_eq_zero, List.isEmpty_iff_length_eq_zero,
      hreacts.alike.length_eq]
  simp only [Client.leave, h.state, hempty]
  refine (h.moved .leave).obey ?_
  split
  · exact hreacts.append (.refl .same _)
  · exact hreacts

theorem heard (event : Option LinkEvent) (now : Instant) :
    (c.heard now event).Follows token common (d.heard now event) := by
  cases event with
  | none => exact h.closeLine.drive .transportLost
  | some event =>
    cases event with
    | connected => exact h
    | message bytes => exact h.drive (.message bytes now)
    | disconnected code => exact h.closeLine.drive (.transportClosed code)

theorem obeyCommand (command : Command) :
    (c.obeyCommand command).Follows token common (d.obeyCommand command) := by
  cases command with
  | leave => exact h.leave
  | setMute muted => exact h.drive (.setMute muted)
  | sendDataMessage message => exact h.drive (.sendDataMessage message)
  | resubscribe => exact h.drive .resubscribe

theorem sendMedia (packet : Octets) :
    (c.sendMedia packet).Follows token common (d.sendMedia packet) := by
  unfold Client.sendMedia
  rw [h.state]
  split
  · exact h.send (.media packet)
  · exact h

theorem halt : c.halt.Follows token common d.halt := h.closeLine.inPhase .stopped

theorem abandonDial : c.abandonDial.Follows token common d.abandonDial :=
  (h.inPhase .serving).drive .leave

theorem retire : c.retire.Follows token common d.retire := by
  unfold Client.retire
  rw [h.phase, h.state, h.line]
  split
  · exact h.halt
  · exact h

theorem serve (s : Stimulus) : (c.serve s).Follows token common (d.serve s) := by
  cases s with
  | begin | waited | dialed => exact h
  | heard event now =>
    simp only [Client.serve, h.line]
    split
    · exact h.heard event now
    · exact h
  | command command => exact h.obeyCommand command
  | media packet => exact h.sendMedia packet
  | pingDue => exact h.drive .ping
  | stop => exact h.halt

theorem step (s : Stimulus) : (c.step s).Follows token common (d.step s) := by
  unfold Client.step
  rw [h.phase]
  split
  · exact h.start
  · exact h.dial _
  · exact (h.dialed _ _).retire
  · exact h.abandonDial.retire
  · exact h.abandonDial.retire
  · exact (h.serve _).retire
  · exact h

theorem run (stimuli : List Stimulus) : (c.run stimuli).Follows token common (d.run stimuli) := by
  induction stimuli generalizing c d with
  | nil => exact h
  | cons s rest ih => exact ih (h.step s)

end Follows

/-- A new client under another token follows the one that it was made like. -/
theorem follows_new (policy : ReconnectPolicy) (m : Machine) (token : String)
    (visits : VideoSources.Visits) :
    (new policy m).Follows token (visits = m.visits) (new policy (m.disguise token visits)) :=
  ⟨rfl, id, rfl, rfl, rfl, rfl, .refl .same _⟩

end Client

/-! ## All that comes of a descriptor -/

/-- A token is no part of what a descriptor shows of itself. -/
theorem Descriptor.description_withToken (d : Descriptor) (token : String) :
    (d.withToken token).description = d.description := rfl

theorem Machine.disguise_new (d : Descriptor) (config : SignalingConfig) (offerId : UInt64)
    (visits visits' : VideoSources.Visits) (token : String) :
    (new d config offerId visits).disguise token visits' =
      new (d.withToken token) config offerId visits' := rfl

/-- The cookie is the only header that is made of the token. -/
theorem Handshake.headers_filter (h : Handshake) :
    h.headers.filter (·.1 = "Cookie") = [("Cookie", "_aws_wt_session=" ++ h.joinToken)] ∧
      h.headers.filter (·.1 ≠ "Cookie") = [("X-Chime-Control-Protocol-Version", "3")] :=
  ⟨rfl, rfl⟩

/-- **The token goes into the cookie and nowhere else.** Take two descriptors that differ in nothing
but the join token. Whatever is done with machines made of them, they ask for the same actions and
are the same but for the descriptor; and whatever happens to clients with such machines, they do the
same, and so put the same on the wire. How either goes through its sources is up to chance: where it
is not the same for both, sources that are withdrawn together may come in another order, and that is
all. The descriptors and the handshakes made of them are described alike. The handshakes dial the
same address with the same headers, but for the one cookie, whose value is the token behind a fixed
name. -/
theorem token_in_cookie_alone {d e : Descriptor} (same : d.SameButToken e)
    (config : SignalingConfig) (offerId : UInt64) (visits visits' : VideoSources.Visits)
    (inputs : List Machine.Input) (policy : ReconnectPolicy) (stimuli : List Stimulus)
    (timeout : Span) :
    let m := (Machine.new d config offerId visits).run inputs
    let n := (Machine.new e config offerId visits').run inputs
    let a := (Client.new policy (.new d config offerId visits)).run stimuli
    let b := (Client.new policy (.new e config offerId visits')).run stimuli
    let g := Handshake.ofDescriptor d timeout
    let h := Handshake.ofDescriptor e timeout
    (visits' = visits → m.2 = n.2 ∧ { m.1 with descriptor := e } = { n.1 with descriptor := e } ∧
      a.deeds = b.deeds) ∧
    (List.Forall₂ (List.Forall₂ Action.Alike) m.2 n.2 ∧
      { m.1 with descriptor := e, visits } = { n.1 with descriptor := e, visits }) ∧
    (List.Forall₂ Deed.Alike a.log b.log ∧
      a.log.filter (!·.isNews) = b.log.filter (!·.isNews)) ∧
    (d.description = e.description ∧ g.description = h.description) ∧
    (g.url = h.url ∧ g.headers.filter (·.1 ≠ "Cookie") = h.headers.filter (·.1 ≠ "Cookie")) ∧
    g.headers.filter (·.1 = "Cookie") = [("Cookie", "_aws_wt_session=" ++ d.joinToken)] ∧
    h.headers.filter (·.1 = "Cookie") = [("Cookie", "_aws_wt_session=" ++ e.joinToken)] := by
  intro m n a b g h
  have hmachine : Machine.new e config offerId visits' =
      (Machine.new d config offerId visits).disguise e.joinToken visits' := by
    rw [Machine.disguise_new, ← same]
  have hrun : Machine.Agrees (List.Forall₂ Action.Alike) e.joinToken (visits' = visits) m n := by
    have hagrees := Machine.agrees_run (.new d config offerId visits) e.joinToken visits' inputs
    rwa [← hmachine] at hagrees
  have hclient : a.Follows e.joinToken (visits' = visits) b := by
    have hnew := Client.follows_new policy (.new d config offerId visits) e.joinToken visits'
    rw [← hmachine] at hnew
    exact hnew.run stimuli
  have hdescribed : e.description = d.description := by
    rw [same]
    exact d.description_withToken _
  have hurl : h.url = g.url := by
    show e.signalingUrl.text = d.signalingUrl.text
    rw [same]
    rfl
  have hhandshake : h.description = g.description := by
    unfold Handshake.description
    rw [hurl]
    rfl
  obtain ⟨hcookie, hother⟩ := g.headers_filter
  obtain ⟨hcookie', hother'⟩ := h.headers_filter
  refine ⟨fun hsame => ⟨(hrun.actions.same hsame).symm, ?_, ?_⟩, ⟨hrun.actions.alike, ?_⟩,
    ⟨hclient.deeds.alike, (filter_isNews_of_alike hclient.deeds.alike).symm⟩,
    ⟨hdescribed.symm, hhandshake.symm⟩, ⟨hurl.symm, hother.trans hother'.symm⟩, hcookie, hcookie'⟩
  · rw [hrun.next, hrun.visits hsame]
    rfl
  · exact (Array.ext' (hclient.deeds.same hsame)).symm
  · rw [hrun.next]
    rfl

/-- Two tokens that other texts hold as well, the number of the revision and a part of the host. One
machine goes through its sources as it keeps them and one backwards: they withdraw the sources of b
and c in different orders, and go on to a second subscription and the leave. -/
theorem token_in_cookie_alone_of_leave :
    let descriptor (token : String) : Descriptor :=
      { meetingId := "m", externalMeetingId := "", credentials := ⟨"a", "x#A", token⟩
        audioHostUrl := "audio:3478", signalingUrl := ⟨"wss://h", by decide⟩ }
    let d := descriptor "3"
    let e := descriptor "audio"
    let backwards : VideoSources.Visit := ⟨List.reverse, List.reverse_perm⟩
    let inputs : List Machine.Input := [.start, .transportUp,
      .message [0x02, 0x08, 0x00, 0x10, 0x02] 0,
      .message [0x02, 0x08, 0x00, 0x10, 0x05, 0x3a, 0x0a, 0x12, 0x03, 0x42, 0x01, 0x62, 0x12, 0x03,
        0x42, 0x01, 0x63] 0,
      .message [0x02, 0x08, 0x00, 0x10, 0x05, 0x3a, 0x00] 0, .resubscribe, .leave]
    let of (id : String) : VideoSource :=
      VideoSources.ofStream { profileUuid := some id }
    let m := (Machine.new d {} 7).run inputs
    let n := (Machine.new e {} 7 fun _ => backwards).run inputs
    d.SameButToken e ∧ d ≠ e ∧ m.2.map List.length = [0, 1, 2, 1, 1, 1, 2] ∧
      m.2[4]? = some [.emit (.videoSourcesUnavailable [of "c", of "b"])] ∧
      n.2[4]? = some [.emit (.videoSourcesUnavailable [of "b", of "c"])] ∧
      List.Forall₂ (List.Forall₂ Action.Alike) m.2 n.2 ∧
      m.2 = ((Machine.new e {} 7).run inputs).2 ∧
      (Handshake.ofDescriptor d (.ofSeconds 10)).headers ≠
        (Handshake.ofDescriptor e (.ofSeconds 10)).headers := by
  intro descriptor d e backwards inputs of m n
  have same : d.SameButToken e := rfl
  obtain ⟨-, ⟨halike, -⟩, -⟩ := token_in_cookie_alone same {} 7 (fun _ => .asKept)
    (fun _ => backwards) inputs {} [] (.ofSeconds 10)
  obtain ⟨hcommon, -⟩ := token_in_cookie_alone same {} 7 (fun _ => .asKept)
    (fun _ => .asKept) inputs {} [] (.ofSeconds 10)
  exact ⟨same, by decide, by decide +kernel, by decide +kernel, by decide +kernel, halike,
    (hcommon rfl).1, by decide⟩

end Parley
