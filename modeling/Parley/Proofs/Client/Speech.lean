import Parley.Proofs.Client.Lines
import Parley.Proofs.Signaling.Conversation

/-!
# `Parley/Proofs/Client/Speech.lean` — what a client says, and when

What passes over one line in a run is a conversation. A client knows how far the conversation over
its own line has come by the state of its machine (`Client.stage`), and that none has begun over a
line that it was not handed; that is all that it has to know (`Client.Keeps`), through any number of
reconnects. A client that has said goodbye is done, and does not turn to the service again.
-/

set_option autoImplicit false

namespace Parley

open Parley.Wire

def Deed.isGoodbye : Deed → Bool
  | .send _ content => Saying.of content = .leave
  | _ => false

/-- Whether a client turns to the service with a deed: it says something, or goes for a new line. -/
def Deed.isOutward : Deed → Bool
  | .send _ _ | .dial | .take _ => true
  | _ => false

theorem Deed.isOutward_of_isNews {d : Deed} (h : d.isNews = true) : d.isOutward = false := by
  cases d <;> simp_all [isNews, isOutward]

theorem Deed.isGoodbye_iff {d : Deed} :
    d.isGoodbye = true ↔ ∃ line content, d = .send line content ∧ Saying.of content = .leave := by
  cases d <;> simp [isGoodbye]

namespace Client

/-! ## The conversations of a client -/

/-- What is heard over a line when a stimulus reaches a client, if anything is. -/
def hears (c : Client) (s : Stimulus) (line : Nat) : Option LinkEvent :=
  match c.phase, s with
  | .dialing _, .dialed (.opened first) => if line = c.taken then first else none
  | .serving, .heard event _ => if c.line = some line then event else none
  | _, _ => none

def saidOn (line : Nat) (deeds : List Deed) : List Content :=
  deeds.filterMap fun
    | .send l content => if l = line then some content else none
    | _ => none

def exchange (c : Client) (line : Nat) (s : Stimulus) : Exchange :=
  ⟨c.hears s line, saidOn line (c.deedsOf s)⟩

/-- What passes over a line, one stimulus after the other. -/
def conversation (c : Client) (line : Nat) : List Stimulus → List Exchange
  | [] => []
  | s :: rest => c.exchange line s :: (c.step s).conversation line rest

def stage (c : Client) : Stage :=
  match c.state with
  | .authenticating => .asking
  | .joined => .meeting
  | _ => .parted

theorem conversation_concat (c : Client) (line : Nat) (stimuli : List Stimulus) (s : Stimulus) :
    c.conversation line (stimuli ++ [s]) =
      c.conversation line stimuli ++ [(c.run stimuli).exchange line s] := by
  induction stimuli generalizing c with
  | nil => rfl
  | cons t rest ih =>
    show c.exchange line t :: (c.step t).conversation line (rest ++ [s]) = _
    rw [ih]
    rfl

@[simp] theorem saidOn_append (line : Nat) (deeds deeds' : List Deed) :
    saidOn line (deeds ++ deeds') = saidOn line deeds ++ saidOn line deeds' :=
  List.filterMap_append ..

theorem saidOn_of_isNews {deeds : List Deed} (h : ∀ d ∈ deeds, d.isNews = true) (line : Nat) :
    saidOn line deeds = [] := by
  refine List.filterMap_eq_nil_iff.mpr fun d hd => ?_
  have hnews := h d hd
  cases d <;> simp_all [Deed.isNews]

theorem saidOn_close {before after : List Deed} (h : ∀ d ∈ before ++ after, d.isNews = true)
    (line closed : Nat) : saidOn line (before ++ .close closed :: after) = [] := by
  rw [List.append_cons, saidOn_append, saidOn_append]
  rw [saidOn_of_isNews fun d hd => h d (List.mem_append_left _ hd)]
  rw [saidOn_of_isNews fun d hd => h d (List.mem_append_right _ hd)]
  rfl

theorem saidOn_turnedAway (line taken : Nat) (outcome : DialOutcome) :
    saidOn line (outcome.turnedAway taken) = [] := by
  cases outcome <;> rfl

/-- What a client knows of the conversation over a line: that there is none yet if the line is not
handed out, and how far it has come if the line is its own. -/
def Keeps (c : Client) (line : Nat) (talk : List Exchange) : Prop :=
  ∃ stage, Conversation talk stage ∧ (c.taken ≤ line → stage = .apart) ∧
    (c.line = some line → stage = c.stage)

variable {c next : Client} {s : Stimulus} {deeds : List Deed} {line : Nat}

/-- Nothing passes over a line that is neither the client's own nor handed to it just now. -/
theorem Turn.elsewhere (turn : Turn c s next deeds) (hline : c.line ≠ some line)
    (hhanded : line = c.taken → c.handed s = 0) :
    saidOn line deeds = [] ∧ next.line ≠ some line := by
  have other : ∀ {l : Nat}, c.line = some l → l ≠ line := by
    rintro l up rfl
    exact hline up
  cases turn with
  | still _ _ _ hnext _ reports =>
    rw [hnext]
    exact ⟨saidOn_of_isNews (fun d hd => Deed.isNews_of_isReport (reports d hd)) line, hline⟩
  | began _ _ _ hnext | redialed _ _ _ hnext | withdrew _ _ _ hnext =>
    exact ⟨rfl, by simp [hnext]⟩
  | missed _ _ _ _ _ hnext | gaveUp _ _ _ _ _ hnext =>
    rw [saidOn_append, saidOn_turnedAway]
    exact ⟨rfl, by simp [hnext]⟩
  | connected hphase _ _ hnext =>
    have hne : c.taken ≠ line := by
      intro heq
      simpa [handed, hphase, DialOutcome.lines] using hhanded heq.symm
    exact ⟨by simp [saidOn, hne], by simp [hnext, hne]⟩
  | spoke up _ _ _ _ hnext | admitted up _ _ _ _ _ hnext | left up _ _ _ hnext =>
    rw [hnext]
    exact ⟨by simp [saidOn, other up], hline⟩
  | lost _ _ _ _ _ hnext | lostForGood _ _ _ _ _ hnext => exact ⟨rfl, by simp [hnext]⟩
  | @ended _ _ l _ _ _ hnews _ hnext =>
    exact ⟨saidOn_close hnews line l, by simp [hnext]⟩

theorem hears_elsewhere (hline : c.line ≠ some line) (hhanded : line = c.taken → c.handed s = 0) :
    c.hears s line = none := by
  unfold hears
  split
  · rename_i attempt first hphase
    refine if_neg fun heq => ?_
    simpa [handed, hphase, DialOutcome.lines] using hhanded heq
  · exact if_neg hline
  · rfl

/-- A line that is handed out comes up, and the client asks to join, or it is refused. -/
theorem Turn.handed (h : c.Settled) (turn : Turn c s next deeds) (hhanded : c.handed s ≠ 0) :
    ∃ stage, Stage.apart.Moves ⟨c.hears s c.taken, saidOn c.taken deeds⟩ stage ∧
      (next.line = some c.taken → stage = next.stage) := by
  unfold Client.handed at hhanded
  split at hhanded
  · rename_i attempt outcome hphase
    cases outcome with
    | refused | timedOut => exact absurd rfl hhanded
    | opened first =>
      have hhears : c.hears (.dialed (.opened first)) c.taken = first := by simp [hears, hphase]
      rw [hhears]
      cases turn with
      | connected _ hstate =>
        refine ⟨.asking, .ask rfl ?_, fun _ => by simp [stage, hstate]⟩
        simp [Exchange.sayings, saidOn, Saying.of]
      | missed _ down _ _ _ hnext | gaveUp _ down _ _ _ hnext =>
        refine ⟨.refused, .refuse (fun hup => down (congrArg _ hup)) ?_, by simp [hnext]⟩
        rw [saidOn_append, saidOn_turnedAway]
        rfl
      | still undialed => exact absurd rfl (undialed attempt _ hphase)
      -- the other turns need a line, and who dials has none
      | spoke up | admitted up | lost up | lostForGood up | ended up =>
        exact absurd (up.symm.trans (h.connecting (by simp [isConnecting, hphase])).1) (by simp)
  · exact absurd rfl hhanded

theorem hearsJoinAck_of_isJoinAck (h : c.Settled) (up : c.line = some line)
    (answer : s.IsJoinAck) : (c.exchange line s).HearsJoinAck := by
  have hphase := h.serving_of_line up
  match s, answer with
  | .heard (some (.message bytes)) now, answer =>
    exact ⟨bytes, by simp [exchange, hears, hphase, up], answer⟩

/-- A silent exchange over a client's own line leaves the conversation where it is, unless the
client hears what it waits for. -/
theorem moves_of_silent (h : c.Settled) (hphase : c.phase = .serving) {x : Exchange}
    (hsaid : x.said = []) (hdeaf : c.state = .authenticating → ¬ x.HearsJoinAck) :
    c.stage.Moves x c.stage := by
  have hnone := Exchange.sayings_of_said hsaid
  unfold stage
  rcases (h.serving hphase).2 with hs | hs | hs <;> rw [hs]
  · exact .wait (hdeaf hs) (by simp [hnone])
  · exact .talk (by simp [hnone])
  · exact .linger hsaid

/-- What passes over a client's own line is what the stage allows that the client has in mind. -/
theorem Turn.own (h : c.Settled) (turn : Turn c s next deeds) (up : c.line = some line)
    (hdeaf : c.state = .authenticating → ¬ s.IsJoinAck) :
    ∃ stage, c.stage.Moves ⟨c.hears s line, saidOn line deeds⟩ stage ∧
      (next.line = some line → stage = next.stage) := by
  have hphase := h.serving_of_line up
  -- whatever is heard over the line is the stimulus itself, as the client serves
  have hears : ∀ said, c.state = .authenticating →
      ¬ (⟨c.hears s line, said⟩ : Exchange).HearsJoinAck := by
    rintro said hs ⟨bytes, hheard, hack⟩
    refine hdeaf hs ?_
    unfold Client.hears at hheard
    split at hheard
    · rename_i hdialing
      exact absurd (hphase.symm.trans hdialing) (by simp)
    · obtain rfl : _ = some (LinkEvent.message bytes) := (if_pos up).symm.trans hheard
      exact hack
    · simp at hheard
  have silent (hsaid : saidOn line deeds = [])
      (hnext : next.line = some line → c.stage = next.stage) :
      ∃ stage, c.stage.Moves ⟨c.hears s line, saidOn line deeds⟩ stage ∧
        (next.line = some line → stage = next.stage) :=
    ⟨c.stage, moves_of_silent h hphase hsaid (hears _), hnext⟩
  have same {l : Nat} (up' : c.line = some l) : l = line := by
    simpa using up'.symm.trans up
  cases turn with
  | still _ hstate _ _ _ reports =>
    refine silent ?_ fun _ => by rw [stage, stage, hstate]
    exact saidOn_of_isNews (fun d hd => Deed.isNews_of_isReport (reports d hd)) line
  | lost _ _ _ _ _ hnext | lostForGood _ _ _ _ _ hnext => exact silent rfl (by simp [hnext])
  | @ended _ _ l _ _ _ hnews _ hnext =>
    exact silent (saidOn_close hnews line l) (by simp [hnext])
  | @spoke _ _ l content up' session state hstate =>
    obtain rfl := same up'
    refine ⟨c.stage, ?_, fun _ => by rw [stage, stage, hstate]⟩
    have hsaid : saidOn l [.send l content] = [content] := by simp [saidOn]
    rw [hsaid, stage]
    rcases state with hs | ⟨hs, hpong⟩ <;> rw [hs]
    · exact .talk (by simpa [Exchange.sayings] using session)
    · exact .wait (hears _ hs) (by simpa [Exchange.sayings] using hpong)
  | admitted _ hs answer => exact absurd answer (hdeaf hs)
  | left up' hs hstate =>
    obtain rfl := same up'
    refine ⟨.parted, ?_, fun _ => by simp [stage, hstate]⟩
    rw [stage, hs]
    exact .part (by simp [Client.hears, hphase]) (by simp [Exchange.sayings, saidOn]; rfl)
  | began hidle => exact absurd (hphase.symm.trans hidle) (by simp)
  | redialed hwaiting => exact absurd (hphase.symm.trans hwaiting) (by simp)
  | missed hdialing | gaveUp hdialing | connected hdialing =>
    exact absurd (hphase.symm.trans hdialing) (by simp)
  | withdrew hconnecting => exact absurd hconnecting (by simp [isConnecting, hphase])

theorem keeps_step (h : c.Settled) (lines : c.AccountsForLines) {talk : List Exchange}
    (before : c.Keeps line talk) (s : Stimulus) :
    (c.step s).Keeps line (talk ++ [c.exchange line s]) := by
  obtain ⟨stage, htalk, hapart, hown⟩ := before
  have turn := (turn_step h s).2
  have htaken := turn.taken h
  -- the line is the client's own, or handed to it just now, or neither
  by_cases up : c.line = some line
  · have hlt : line < c.taken := lines.lt_of_open line up
    have hfar : ¬ (c.step s).taken ≤ line := by omega
    obtain rfl := hown up
    by_cases hack : c.state = .authenticating ∧ s.IsJoinAck
    · -- the client is admitted
      obtain ⟨event, frame, hasks, hdeeds, hstate, -, -⟩ := turn_of_isJoinAck h up hack.1 hack.2
      refine ⟨.meeting, htalk.concat ?_, fun hle => absurd hle hfar, fun _ => ?_⟩
      · have hsaid : (c.exchange line s).sayings = [.subscribe] := by
          simp [exchange, Exchange.sayings, hdeeds, saidOn, Saying.of, hasks]
        rw [Client.stage, hack.1]
        exact .answer (hearsJoinAck_of_isJoinAck h up hack.2) hsaid
      · rw [Client.stage, hstate]
    · obtain ⟨stage, move, hstage⟩ := turn.own h up fun hs hanswer => hack ⟨hs, hanswer⟩
      exact ⟨stage, htalk.concat move, fun hle => absurd hle hfar, hstage⟩
  · by_cases hhanded : line = c.taken ∧ c.handed s ≠ 0
    · obtain ⟨rfl, hhanded⟩ := hhanded
      obtain rfl := hapart (Nat.le_refl _)
      obtain ⟨stage, move, hstage⟩ := turn.handed h hhanded
      exact ⟨stage, htalk.concat move, fun hle => absurd hle (by omega), hstage⟩
    · have hnot : line = c.taken → c.handed s = 0 := by
        intro heq
        by_contra hne
        exact hhanded ⟨heq, hne⟩
      obtain ⟨hsaid, hnext⟩ := turn.elsewhere up hnot
      refine ⟨stage, htalk.concat (.elsewhere (hears_elsewhere up hnot) hsaid), ?_, ?_⟩
      · exact fun hle => hapart (by omega)
      · exact fun hline => absurd hline hnext

theorem keeps_run (h : c.Settled) (lines : c.AccountsForLines) (before : c.Keeps line [])
    (stimuli : List Stimulus) : (c.run stimuli).Keeps line (c.conversation line stimuli) := by
  induction stimuli using List.reverseRecOn with
  | nil => exact before
  | append_singleton stimuli s ih =>
    rw [run_concat, conversation_concat]
    exact keeps_step (settled_run h stimuli) (accountsForLines_run h lines stimuli) ih s

theorem saidOn_log_run (h : c.Settled) (line : Nat) (stimuli : List Stimulus) :
    saidOn line (c.run stimuli).log =
      saidOn line c.log ++ (c.conversation line stimuli).flatMap (·.said) := by
  induction stimuli using List.reverseRecOn with
  | nil => simp [run, conversation]
  | append_singleton stimuli s ih =>
    rw [run_concat, log_step (settled_run h stimuli), saidOn_append, ih, conversation_concat]
    simp [exchange]

/-! ## Nothing follows a goodbye -/

/-- A client is done when it has stopped, or is closed and only waits for its line to end. -/
def Done (c : Client) : Prop := c.phase = .stopped ∨ c.phase = .serving ∧ c.state = .closed

/-- Whoever is done stays so, and does not turn to the service any more. -/
theorem Turn.done (h : c.Settled) (turn : Turn c s next deeds) (done : c.Done) :
    next.Done ∧ ∀ d ∈ deeds, d.isOutward = false := by
  have closed {l : Nat} (up : c.line = some l) : c.state = .closed := by
    rcases done with hphase | ⟨-, hs⟩
    · exact absurd ((h.serving_of_line up).symm.trans hphase) (by simp)
    · exact hs
  cases turn with
  | still _ hstate hphase _ _ reports =>
    refine ⟨by simpa only [Done, hstate, hphase] using done, fun d hd => ?_⟩
    exact Deed.isOutward_of_isNews (Deed.isNews_of_isReport (reports d hd))
  -- who is done does not dial, and a closed client says nothing
  | began hphase | redialed hphase | missed hphase | gaveUp hphase | connected hphase =>
    simp [Done, hphase] at done
  | withdrew hconnecting =>
    rcases done with hphase | ⟨hphase, -⟩ <;> simp [isConnecting, hphase] at hconnecting
  | spoke up _ state =>
    have hclosed := closed up
    simp [hclosed] at state
  | admitted up hs => exact absurd (hs.symm.trans (closed up)) (by simp)
  | left up hs => exact absurd (hs.symm.trans (closed up)) (by simp)
  | lost up live | lostForGood up live =>
    rw [closed up] at live
    exact absurd live (by decide)
  | ended _ hnews hphase =>
    refine ⟨.inl hphase, fun d hd => ?_⟩
    rw [List.append_cons] at hd
    rcases List.mem_append.mp hd with hd | hd
    · rcases List.mem_append.mp hd with hd | hd
      · exact Deed.isOutward_of_isNews (hnews d (List.mem_append_left _ hd))
      · rw [List.mem_singleton.mp hd]
        rfl
    · exact Deed.isOutward_of_isNews (hnews d (List.mem_append_right _ hd))

/-- A turn in which a client says goodbye begins with that, and then the client is done. -/
theorem Turn.goodbye (h : c.Settled) (turn : Turn c s next deeds) {content : Content}
    (hsend : .send line content ∈ deeds) (hleave : Saying.of content = .leave) :
    next.Done ∧ deeds.Pairwise fun d e => d.isGoodbye = true → e.isOutward = false := by
  have news (ds : List Deed) (hds : ∀ d ∈ ds, d.isNews = true) : .send line content ∉ ds :=
    fun hmem => absurd (hds _ hmem) (by simp [Deed.isNews])
  cases turn with
  | left up hs hs' hphase =>
    refine ⟨.inr ⟨hphase.trans (h.serving_of_line up), hs'⟩, ?_⟩
    simp [Deed.isOutward]
  | still _ _ _ _ _ reports =>
    exact absurd hsend (news _ fun d hd => Deed.isNews_of_isReport (reports d hd))
  | ended _ hnews => exact absurd (by simpa using hsend) (news _ hnews)
  | @spoke _ _ _ said _ session =>
    obtain ⟨-, rfl⟩ : line = _ ∧ content = said := by simpa using hsend
    rw [hleave] at session
    exact absurd session (by decide)
  | @admitted _ _ _ _ frame _ _ _ asks =>
    obtain ⟨-, rfl⟩ : line = _ ∧ content = .signal frame := by simpa using hsend
    exact absurd (asks.symm.trans hleave) (by decide)
  | connected =>
    obtain ⟨-, rfl⟩ : line = _ ∧ content = _ := by simpa using hsend
    exact absurd hleave (by simp [Saying.of])
  | @missed _ _ outcome => cases outcome <;> simp [DialOutcome.turnedAway] at hsend
  | @gaveUp _ _ outcome => cases outcome <;> simp [DialOutcome.turnedAway] at hsend
  | began | redialed | withdrew | lost | lostForGood => simp at hsend

/-- What a log is like when a client that is done keeps still, and one that says goodbye is done. -/
structure KeepsStill (c : Client) : Prop where
  done : (∃ d ∈ c.log, d.isGoodbye = true) → c.Done
  last : c.log.Pairwise fun d e => d.isGoodbye = true → e.isOutward = false

theorem keepsStill_step (h : c.Settled) (before : c.KeepsStill) (s : Stimulus) :
    (c.step s).KeepsStill := by
  have turn := (turn_step h s).2
  have inTurn : (∃ d ∈ c.deedsOf s, d.isGoodbye = true) → (c.step s).Done ∧
      (c.deedsOf s).Pairwise fun d e => d.isGoodbye = true → e.isOutward = false := by
    rintro ⟨d, hd, hgoodbye⟩
    obtain ⟨line, content, rfl, hleave⟩ := Deed.isGoodbye_iff.mp hgoodbye
    exact turn.goodbye h hd hleave
  constructor
  · rintro ⟨d, hd, hgoodbye⟩
    rw [log_step h] at hd
    rcases List.mem_append.mp hd with hd | hd
    · exact (turn.done h (before.done ⟨d, hd, hgoodbye⟩)).1
    · exact (inTurn ⟨d, hd, hgoodbye⟩).1
  · rw [log_step h]
    refine List.pairwise_append.mpr ⟨before.last, ?_, ?_⟩
    · by_cases hsome : ∃ d ∈ c.deedsOf s, d.isGoodbye = true
      · exact (inTurn hsome).2
      -- without a goodbye there is nothing to show
      · refine List.pairwise_of_forall_mem_list fun d hd e _ hgoodbye => ?_
        exact absurd ⟨d, hd, hgoodbye⟩ hsome
    · intro d hd e he hgoodbye
      exact (turn.done h (before.done ⟨d, hd, hgoodbye⟩)).2 e he

theorem keepsStill_run (h : c.Settled) (before : c.KeepsStill) (stimuli : List Stimulus) :
    (c.run stimuli).KeepsStill := by
  induction stimuli using List.reverseRecOn with
  | nil => exact before
  | append_singleton stimuli s ih =>
    rw [run_concat]
    exact keepsStill_step (settled_run h stimuli) ih s

/-- **Every line carries one conversation.** Over a line that comes up a client says a word of the
grammar, over any other line nothing. It subscribes for the first time in the exchange in which it
hears the first answer to its join, if it hears one. So media goes out only after that, and before
any goodbye; and after a goodbye nothing is said over any line, and no other line is dialed. -/
theorem conversation_of_run (policy : ReconnectPolicy) (descriptor : Descriptor)
    (config : SignalingConfig) (offerId : UInt64) (visits : VideoSources.Visits)
    (stimuli : List Stimulus) :
    let first := new policy (.new descriptor config offerId visits)
    let last := first.run stimuli
    (∀ line,
      let talk := first.conversation line stimuli
      saidOn line last.log = talk.flatMap (·.said) ∧
      (CameUp talk → (saidOn line last.log).map Saying.of ∈ grammar.matches') ∧
      (¬ CameUp talk → saidOn line last.log = []) ∧
      ((∃ x ∈ talk, .subscribe ∈ x.sayings ∨ CameUp talk ∧ x.HearsJoinAck) → Admission talk) ∧
      (∀ earlier x, earlier ++ [x] <+: talk → .media ∈ x.sayings →
        (∃ y ∈ earlier, y.HearsJoinAck) ∧ ∀ y ∈ earlier ++ [x], .leave ∉ y.sayings)) ∧
    last.log.Pairwise fun d e => d.isGoodbye = true → e.isOutward = false := by
  intro first last
  have hfirst : first.Settled := settled_new policy descriptor config offerId visits
  have hstill : first.KeepsStill := ⟨fun ⟨d, hd, _⟩ => absurd hd (by simp [first, new, log]), .nil⟩
  refine ⟨fun line => ?_, (keepsStill_run hfirst hstill stimuli).last⟩
  intro talk
  have hkeeps : first.Keeps line [] := ⟨.apart, .nil, fun _ => rfl, by simp [first, new]⟩
  obtain ⟨stage, htalk, -, -⟩ := keeps_run hfirst .nil hkeeps stimuli
  have hsaid : saidOn line last.log = talk.flatMap (·.said) := by
    rw [saidOn_log_run hfirst]
    rfl
  have hword : (saidOn line last.log).map Saying.of = word talk := by
    rw [hsaid, List.map_flatMap]
    rfl
  refine ⟨hsaid, ?up, ?down, htalk.admission_of, ?media⟩
  case up =>
    intro hup
    rw [hword]
    exact htalk.word.mem_grammar (htalk.cameUp_iff.mp hup)
  case down =>
    intro hdown
    exact List.map_eq_nil_iff.mp (hword.trans (htalk.word_of_not_cameUp hdown))
  case media =>
    intro earlier x hpast hmedia
    obtain ⟨_, hpast⟩ := htalk.of_prefix hpast
    exact hpast.around_media hmedia

/-- Over its first line a client is admitted and sends media, until the line is lost. The next line
does not come up. Over the third it is admitted again, and leaves. -/
theorem conversation_of_run_of_return :
    let descriptor : Descriptor :=
      { meetingId := "m", externalMeetingId := "", credentials := ⟨"a", "", "t"⟩
        audioHostUrl := "", signalingUrl := ⟨"ws://h", by decide⟩ }
    let first := new {} (.new descriptor {} 0)
    let up := Stimulus.dialed (.opened (some .connected))
    let joinAck := Stimulus.heard (some (.message [0x02, 0x08, 0x00, 0x10, 0x02])) 0
    let stimuli := [.begin, up, joinAck, .media [1], .heard none 0, .waited, .dialed (.opened none),
      .waited, up, joinAck, .command .leave]
    let said (line : Nat) := (saidOn line (first.run stimuli).log).map Saying.of
    said 0 = [.join, .subscribe, .media] ∧ said 1 = [] ∧ said 2 = [.join, .subscribe, .leave] ∧
      said 0 ∈ grammar.matches' ∧ said 2 ∈ grammar.matches' ∧
      Admission (first.conversation 0 stimuli) ∧ Admission (first.conversation 2 stimuli) ∧
      (first.run stimuli).log.any Deed.isGoodbye = true ∧
      (first.run stimuli).log.Pairwise fun d e => d.isGoodbye = true → e.isOutward = false := by
  intro descriptor first up joinAck stimuli said
  obtain ⟨hlines, hquiet⟩ :=
    conversation_of_run {} descriptor {} 0 (fun _ => .asKept) stimuli
  have hup : CameUp (first.conversation 0 stimuli) ∧ CameUp (first.conversation 2 stimuli) := by
    unfold CameUp
    decide +kernel
  have hdown : ¬ CameUp (first.conversation 1 stimuli) := by
    unfold CameUp
    decide +kernel
  have hsubscribes : (∃ x ∈ first.conversation 0 stimuli, .subscribe ∈ x.sayings) ∧
      ∃ x ∈ first.conversation 2 stimuli, .subscribe ∈ x.sayings := by
    decide +kernel
  obtain ⟨-, hword, -, hadmission, -⟩ := hlines 0
  obtain ⟨-, -, hnothing, -⟩ := hlines 1
  obtain ⟨-, hword', -, hadmission', -⟩ := hlines 2
  have admitted := hadmission (hsubscribes.1.imp fun _ hx => ⟨hx.1, .inl hx.2⟩)
  have admitted' := hadmission' (hsubscribes.2.imp fun _ hx => ⟨hx.1, .inl hx.2⟩)
  exact ⟨by decide +kernel, congrArg (List.map Saying.of) (hnothing hdown), by decide +kernel,
    hword hup.1, hword' hup.2, admitted, admitted', by decide +kernel, hquiet⟩

end Client

end Parley
