import Parley.Proofs.Client.Turn

/-!
# `Parley/Proofs/Client/Lines.lean` — a client keeps account of its lines

Lines are handed out one after the other, and a client must close every one of them once, whether
the other end hangs up, the machine asks for it, a line does not come up, or the client is told to
stop. `Accounts` is what a log looks like that keeps account of its lines: a line is taken when none
is open, and things are said on the open line until it is closed. A turn goes on with such a log
(`Accounts.turn`), so every run leaves one behind, and what the log says of the lines is then read
off it without looking at the client again.
-/

set_option autoImplicit false

namespace Parley

open Parley.Wire

/-- The line that a deed is about, if it is about one. -/
def Deed.line? : Deed → Option Nat
  | .take line | .close line | .send line _ => some line
  | _ => none

theorem Deed.line?_of_isNews {d : Deed} (h : d.isNews = true) : d.line? = none := by
  cases d <;> simp_all [isNews, line?]

/-- A line is open after a log in which it is taken and not closed. -/
def IsOpen (log : List Deed) (line : Nat) : Prop := .take line ∈ log ∧ .close line ∉ log

/-- A log that accounts for all of its lines: how many were taken, and which one is open. -/
inductive Accounts : List Deed → Nat → Option Nat → Prop where
  | nil : Accounts [] 0 none
  | take {log : List Deed} {taken : Nat} (before : Accounts log taken none) :
      Accounts (log ++ [.take taken]) (taken + 1) (some taken)
  | close {log : List Deed} {taken line : Nat} (before : Accounts log taken (some line)) :
      Accounts (log ++ [.close line]) taken none
  | send {log : List Deed} {taken line : Nat} {content : Content}
      (before : Accounts log taken (some line)) :
      Accounts (log ++ [.send line content]) taken (some line)
  | other {log : List Deed} {taken : Nat} {line : Option Nat} {d : Deed}
      (before : Accounts log taken line) (about : d.line? = none) :
      Accounts (log ++ [d]) taken line

namespace Accounts

variable {log : List Deed} {taken : Nat} {line : Option Nat}

/-! ## What a log that accounts for its lines says of them -/

theorem lt_of_open (h : Accounts log taken line) : ∀ l ∈ line, l < taken := by
  induction h with
  | nil | close => simp
  | take => simp
  | send _ ih => exact ih
  | other _ _ ih => exact ih

theorem mem_take_iff (h : Accounts log taken line) (l : Nat) : .take l ∈ log ↔ l < taken := by
  induction h with
  | nil => simp
  | take _ ih => simp [ih]; omega
  | close _ ih | send _ ih => simp [ih]
  | other _ about ih =>
    have hne : ∀ d : Deed, d.line? = none → .take l ≠ d := by
      rintro _ hd rfl
      simp [Deed.line?] at hd
    simp [ih, hne _ about]

/-- A line is closed once if it was taken and is not open any more, and never otherwise. -/
theorem count_close (h : Accounts log taken line) (l : Nat) :
    log.count (.close l) = if l < taken ∧ l ∉ line then 1 else 0 := by
  induction h with
  | nil => simp
  | @take log taken before ih =>
    rw [List.count_append, ih]
    -- a line just taken is a new one, and open
    by_cases hl : l = taken
    · simp [hl]
    · have hlt : l < taken + 1 ↔ l < taken := by omega
      simp [hlt, Ne.symm hl]
  | @close log taken line before ih =>
    have hlt := before.lt_of_open line rfl
    rw [List.count_append, ih]
    by_cases hl : l = line
    · simp [hl, hlt]
    · simp [Ne.symm hl]
  | send _ ih =>
    rw [List.count_append, ih]
    simp
  | other _ about ih =>
    have hne : ∀ d : Deed, d.line? = none → d ≠ .close l := by
      rintro _ hd rfl
      simp [Deed.line?] at hd
    rw [List.count_append, ih]
    simp [hne _ about]

theorem isOpen_iff (h : Accounts log taken line) (l : Nat) : IsOpen log l ↔ l ∈ line := by
  rw [IsOpen, h.mem_take_iff, ← List.count_eq_zero, h.count_close]
  by_cases hopen : l ∈ line
  · simp [hopen, h.lt_of_open l hopen]
  · simp [hopen]

theorem before {d : Deed} (h : Accounts (log ++ [d]) taken line) :
    ∃ taken' line', Accounts log taken' line' := by
  generalize hlog : log ++ [d] = whole at h
  cases h with
  | nil => simp at hlog
  | take h | close h | send h => exact ⟨_, _, List.append_inj_left' hlog rfl ▸ h⟩
  | other h _ => exact ⟨_, _, List.append_inj_left' hlog rfl ▸ h⟩

theorem of_prefix (h : Accounts log taken line) {past : List Deed} (hpast : past <+: log) :
    ∃ taken' line', Accounts past taken' line' := by
  obtain ⟨rest, rfl⟩ := hpast
  induction rest using List.reverseRecOn generalizing taken line with
  | nil => exact ⟨taken, line, by simpa using h⟩
  | append_singleton rest d ih =>
    rw [← List.append_assoc] at h
    obtain ⟨_, _, hbefore⟩ := h.before
    exact ih hbefore

theorem pairwise_close_send (h : Accounts log taken line) :
    log.Pairwise fun d e => ∀ l content, d = .close l → e ≠ .send l content := by
  induction h with
  | nil => exact .nil
  | take _ ih | close _ ih =>
    refine List.pairwise_append.mpr ⟨ih, List.pairwise_singleton .., ?_⟩
    simp
  | @send log taken line content before ih =>
    refine List.pairwise_append.mpr ⟨ih, List.pairwise_singleton .., ?_⟩
    -- the line that is spoken on is open, hence not closed
    have hopen : .close line ∉ log := ((before.isOpen_iff line).mpr rfl).2
    intro d hd e he l content' hclose hsend
    obtain rfl : e = .send line content := by simpa using he
    obtain ⟨rfl, -⟩ : line = l ∧ content = content' := by simpa using hsend
    exact hopen (hclose ▸ hd)
  | other _ about ih =>
    refine List.pairwise_append.mpr ⟨ih, List.pairwise_singleton .., ?_⟩
    intro d _ e he l content _ hsend
    rw [List.mem_singleton.mp he] at hsend
    simp [hsend, Deed.line?] at about

/-! ## Turns -/

theorem append (h : Accounts log taken line) {deeds : List Deed}
    (about : ∀ d ∈ deeds, d.line? = none) : Accounts (log ++ deeds) taken line := by
  induction deeds generalizing log with
  | nil => simpa using h
  | cons d rest ih =>
    rw [List.append_cons]
    exact ih (h.other (about d (by simp))) fun e he => about e (by simp [he])

/-- A line that does not come up is closed as soon as it is taken. -/
theorem turnedAway (h : Accounts log taken none) (outcome : DialOutcome) :
    Accounts (log ++ outcome.turnedAway taken) (taken + outcome.lines) none := by
  cases outcome with
  | refused | timedOut => simpa [DialOutcome.turnedAway, DialOutcome.lines] using h
  | opened first =>
    rw [DialOutcome.turnedAway, List.append_cons]
    exact h.take.close

end Accounts

namespace Client

/-- A client accounts for its lines if its log does, and the line left open is the client's. -/
def AccountsForLines (c : Client) : Prop := Accounts c.log c.taken c.line

/-- Whatever a client does in a turn, it goes on accounting for its lines. -/
theorem Turn.accounts {c next : Client} {s : Stimulus} {deeds : List Deed} (h : c.Settled)
    (turn : Turn c s next deeds) (before : c.AccountsForLines) :
    Accounts (c.log ++ deeds) next.taken next.line := by
  have news : ∀ {ds : List Deed}, (∀ d ∈ ds, d.isNews = true) → ∀ d ∈ ds, d.line? = none :=
    fun hds d hd => Deed.line?_of_isNews (hds d hd)
  unfold AccountsForLines at before
  cases turn with
  | still _ _ _ hline htaken reports =>
    rw [hline, htaken]
    exact before.append (news fun d hd => Deed.isNews_of_isReport (reports d hd))
  | began hphase _ _ hline htaken =>
    have hnone : c.line = none := (by simpa [Settled, hphase] using h : _ ∧ _).1
    rw [hline, htaken, ← hnone]
    exact before.append (by simp [Deed.line?])
  | redialed hphase _ _ hline htaken =>
    rw [hline, htaken, ← (h.connecting (by simp [isConnecting, hphase])).1]
    exact before.append (by simp [Deed.line?])
  | missed hphase _ _ _ _ hline htaken =>
    rw [(h.connecting (by simp [isConnecting, hphase])).1] at before
    rw [hline, htaken, ← List.append_assoc]
    exact (before.turnedAway _).append (by simp [Deed.line?])
  | gaveUp hphase _ _ _ _ hline htaken =>
    rw [(h.connecting (by simp [isConnecting, hphase])).1] at before
    rw [hline, htaken, ← List.append_assoc]
    exact (before.turnedAway _).append (by simp [Deed.line?])
  | connected hphase _ _ hline htaken =>
    rw [(h.connecting (by simp [isConnecting, hphase])).1] at before
    rw [hline, htaken, List.append_cons]
    exact before.take.send
  | withdrew hconnecting _ _ hline htaken =>
    rw [hline, htaken, ← (h.connecting hconnecting).1]
    exact before.append (by simp [Deed.line?])
  | spoke up _ _ _ _ hline htaken =>
    rw [up] at before
    rw [hline, htaken, up]
    exact before.send
  | admitted up _ _ _ _ _ hline htaken =>
    rw [up] at before
    rw [hline, htaken, up, List.append_cons]
    exact (before.other (by simp [Deed.line?])).send
  | lost up _ _ _ _ hline htaken | lostForGood up _ _ _ _ hline htaken =>
    rw [up] at before
    rw [hline, htaken, List.append_cons]
    exact before.close.other (by simp [Deed.line?])
  | @ended s next line earlier later up hnews _ hline htaken =>
    rw [up] at before
    rw [hline, htaken, ← List.append_assoc, List.append_cons]
    refine Accounts.append (Accounts.close (before.append ?_)) ?_
    · exact news fun d hd => hnews d (List.mem_append_left _ hd)
    · exact news fun d hd => hnews d (List.mem_append_right _ hd)
  | left up _ _ _ hline htaken =>
    rw [up] at before
    rw [hline, htaken, up, List.append_cons]
    exact before.send.other (by simp [Deed.line?])

theorem accountsForLines_step {c : Client} (h : c.Settled) (before : c.AccountsForLines)
    (s : Stimulus) : (c.step s).AccountsForLines := by
  rw [AccountsForLines, log_step h]
  exact (turn_step h s).2.accounts h before

/-! ## Runs -/

/-- The number of lines that a stimulus hands to a client. Only a dial hands out lines. -/
def handed (c : Client) (s : Stimulus) : Nat :=
  match c.phase, s with
  | .dialing _, .dialed outcome => outcome.lines
  | _, _ => 0

def handedIn (c : Client) : List Stimulus → Nat
  | [] => 0
  | s :: rest => c.handed s + (c.step s).handedIn rest

theorem handedIn_concat (c : Client) (stimuli : List Stimulus) (s : Stimulus) :
    c.handedIn (stimuli ++ [s]) = c.handedIn stimuli + (c.run stimuli).handed s := by
  induction stimuli generalizing c with
  | nil => simp [handedIn, run]
  | cons t rest ih =>
    show c.handed t + (c.step t).handedIn (rest ++ [s]) = _
    rw [ih, ← Nat.add_assoc]
    rfl

theorem Turn.taken {c next : Client} {s : Stimulus} {deeds : List Deed} (h : c.Settled)
    (turn : Turn c s next deeds) : next.taken = c.taken + c.handed s := by
  -- a client that has a line does not dial, so that nothing it is told hands it another one
  have serving : ∀ {line : Nat}, c.line = some line → c.handed s = 0 := by
    intro line up
    cases hphase : c.phase <;> simp_all [Settled, handed]
  cases turn with
  | still undialed _ _ _ htaken _ =>
    have hzero : c.handed s = 0 := by
      unfold handed
      split
      · rename_i attempt outcome hphase
        exact absurd rfl (undialed attempt outcome hphase)
      · rfl
    rw [htaken, hzero]
    rfl
  | began _ _ _ _ htaken | redialed _ _ _ _ htaken | withdrew _ _ _ _ htaken =>
    simp [htaken, handed]
  | missed hphase _ _ _ _ _ htaken | gaveUp hphase _ _ _ _ _ htaken =>
    simp [htaken, handed, hphase]
  | connected hphase _ _ _ htaken => simp [htaken, handed, hphase, DialOutcome.lines]
  | spoke up _ _ _ _ _ htaken | admitted up _ _ _ _ _ _ htaken | lost up _ _ _ _ _ htaken
  | lostForGood up _ _ _ _ _ htaken | ended up _ _ _ htaken | left up _ _ _ _ htaken =>
    rw [htaken, serving up]
    rfl

theorem Turn.dials {c next : Client} {s : Stimulus} {deeds : List Deed} (h : c.Settled)
    (turn : Turn c s next deeds) (dials : .dial ∈ deeds) :
    c.state.isTerminal = false ∧ next.state.isTerminal = false := by
  cases turn with
  | began hphase hstate =>
    have hidle : c.state = .disconnected := (by simpa [Settled, hphase] using h : _ ∧ _).2
    exact ⟨by rw [hidle]; rfl, by rw [hstate]; rfl⟩
  | redialed hphase hstate =>
    have hlive := isTerminal_of_dialing (h.connecting (by simp [isConnecting, hphase])).2
    exact ⟨hlive, hstate ▸ hlive⟩
  | still _ _ _ _ _ reports => exact absurd (reports _ dials) (by simp [Deed.isReport])
  | @missed _ _ outcome => cases outcome <;> simp [DialOutcome.turnedAway] at dials
  | @gaveUp _ _ outcome => cases outcome <;> simp [DialOutcome.turnedAway] at dials
  | @ended _ _ _ earlier later _ news =>
    have hmem : .dial ∈ earlier ++ later := by simpa using dials
    exact absurd (news _ hmem) (by simp [Deed.isNews])
  | _ => simp at dials

theorem accountsForLines_run {c : Client} (h : c.Settled) (before : c.AccountsForLines)
    (stimuli : List Stimulus) : (c.run stimuli).AccountsForLines := by
  induction stimuli using List.reverseRecOn with
  | nil => exact before
  | append_singleton stimuli s ih =>
    rw [run_concat]
    exact accountsForLines_step (settled_run h stimuli) ih s

theorem taken_run {c : Client} (h : c.Settled) (stimuli : List Stimulus) :
    (c.run stimuli).taken = c.taken + c.handedIn stimuli := by
  induction stimuli using List.reverseRecOn with
  | nil => rfl
  | append_singleton stimuli s ih =>
    have hsettled := settled_run h stimuli
    rw [run_concat, handedIn_concat, (turn_step hsettled s).2.taken hsettled, ih, Nat.add_assoc]

theorem line_of_stopped {c : Client} (h : c.Settled) (hphase : c.phase = .stopped) :
    c.line = none := by
  simpa [Settled, hphase] using h

/-- **Every line is closed once, and in time.** Whatever happens to a client, it takes the lines
that it is handed and has at most one of them open at any time. It says nothing on a line that it
has closed, it does not dial when the session is over, and when it stops it has closed every line
that it was handed exactly once. -/
theorem lines_of_run (policy : ReconnectPolicy) (descriptor : Descriptor) (config : SignalingConfig)
    (offerId : UInt64) (visits : VideoSources.Visits) (stimuli : List Stimulus) :
    let first := new policy (.new descriptor config offerId visits)
    let last := first.run stimuli
    (∀ line, .take line ∈ last.log ↔ line < first.handedIn stimuli) ∧
    (∀ past, past <+: last.log → ∀ line line', IsOpen past line → IsOpen past line' →
      line = line') ∧
    (last.log.Pairwise fun d e => ∀ line content, d = .close line → e ≠ .send line content) ∧
    (∀ earlier s, earlier ++ [s] <+: stimuli → .dial ∈ (first.run earlier).deedsOf s →
      (first.run earlier).state.isTerminal = false ∧
      (first.run (earlier ++ [s])).state.isTerminal = false) ∧
    (last.phase = .stopped →
      ∀ line, last.log.count (.close line) = if line < first.handedIn stimuli then 1 else 0) := by
  intro first last
  have hfirst : first.Settled := settled_new policy descriptor config offerId visits
  have haccounts : last.AccountsForLines := accountsForLines_run hfirst .nil stimuli
  have htaken : last.taken = first.handedIn stimuli := by
    rw [taken_run hfirst]
    exact Nat.zero_add _
  refine ⟨?taken, ?single, haccounts.pairwise_close_send, ?dials, ?closed⟩
  case taken =>
    intro line
    rw [haccounts.mem_take_iff, htaken]
  case single =>
    -- an account names one open line at most
    intro past hpast line line' hopen hopen'
    obtain ⟨_, current, hpast⟩ := haccounts.of_prefix hpast
    exact Option.mem_unique ((hpast.isOpen_iff line).mp hopen) ((hpast.isOpen_iff line').mp hopen')
  case dials =>
    intro earlier s _ hdial
    have hsettled := settled_run hfirst earlier
    rw [run_concat]
    exact (turn_step hsettled s).2.dials hsettled hdial
  case closed =>
    intro hstopped line
    have hnone := line_of_stopped (settled_run hfirst stimuli) hstopped
    rw [haccounts.count_close, hnone, htaken]
    simp

/-- A client joins, speaks and loses its line. The next line does not come up; over the third it
joins again and leaves, and the service acknowledges. -/
theorem lines_of_run_of_return :
    let descriptor : Descriptor :=
      { meetingId := "m", externalMeetingId := "", credentials := ⟨"a", "", "t"⟩
        audioHostUrl := "", signalingUrl := ⟨"ws://h", by decide⟩ }
    let first := new {} (.new descriptor {} 0)
    let up := Stimulus.dialed (.opened (some .connected))
    let joinAck := Stimulus.heard (some (.message [0x02, 0x08, 0x00, 0x10, 0x02])) 0
    let leaveAck := Stimulus.heard (some (.message [0x02, 0x08, 0x00, 0x10, 0x0a])) 0
    let stimuli := [.begin, up, joinAck, .media [1], .heard none 0, .waited, .dialed (.opened none),
      .waited, up, joinAck, .command .leave, leaveAck]
    let last := first.run stimuli
    first.handedIn stimuli = 3 ∧ last.phase = .stopped ∧
      .send 0 (.media [1]) ∈ last.log ∧ last.log.count .dial = 3 ∧
      (∀ line, .take line ∈ last.log ↔ line < 3) ∧
      ∀ line, last.log.count (.close line) = if line < 3 then 1 else 0 := by
  intro descriptor first up joinAck leaveAck stimuli last
  have handed : first.handedIn stimuli = 3 := by decide +kernel
  have hstopped : last.phase = .stopped := by decide +kernel
  have lines := lines_of_run {} descriptor {} 0 (fun _ => .asKept) stimuli
  have htaken : ∀ line, .take line ∈ last.log ↔ line < first.handedIn stimuli := lines.1
  have hclosed : ∀ line, last.log.count (.close line) =
      if line < first.handedIn stimuli then 1 else 0 := lines.2.2.2.2 hstopped
  rw [handed] at htaken hclosed
  exact ⟨handed, hstopped, by decide +kernel, by decide +kernel, htaken, hclosed⟩

end Client

end Parley
