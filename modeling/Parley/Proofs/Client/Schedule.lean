import Mathlib.Data.List.TakeWhile
import Mathlib.Order.MinMax
import Parley.Proofs.Client.Redial

/-!
# `Parley/Proofs/Client/Schedule.lean` — the schedule that a client dials by

A client that has no line makes its attempts one after the other. Before the attempt of number `n`
it waits for `ReconnectPolicy.delay n`, a formula in numbers without bounds, which is what the
policy answers for every attempt that it has (`ReconnectPolicy.paced_of_fits`). The dial at once,
before all attempts that are waited for, has the number zero.

`run_misses` follows a client through dials that bring up no line: each leaves it where it faces the
attempt of the next number. What is left is the end, a line that comes up or a number that has no
place in the schedule, and a client takes no notice of the outcome of a dial after either.
-/

set_option autoImplicit false

namespace Parley

/-! ## The waits -/

namespace ReconnectPolicy

/-- The wait before the attempt of this number, in numbers without bounds. -/
def delay (p : ReconnectPolicy) (n : Nat) : Span :=
  let factor := min (Nat.pow (max p.multiplier.toNat 1) (n - 1)) maxFactor
  ⟨min p.maxDelay.nanos (p.initialDelay.nanos * factor)⟩

/-- The longest wait is a span of time, and the attempts and one more can be counted in 32 bits. -/
structure Fits (p : ReconnectPolicy) : Prop where
  ceiling : p.maxDelay.nanos < Span.limit
  attempts : p.maxAttempts.toNat < UInt32.size - 1

/-- The waits of a policy are those of the formula, and it makes them longer up to the ceiling. -/
structure Paced (p : ReconnectPolicy) : Prop where
  asked : ∀ n, 1 ≤ n → n ≤ p.maxAttempts.toNat → p.delayFor n = some (p.delay n)
  spent : ∀ n, p.maxAttempts.toNat < n → p.delayFor n = none
  grows : Monotone fun n => (p.delay n).nanos
  capped : ∀ n, (p.delay n).nanos ≤ p.maxDelay.nanos
  /-- Every wait is a span of time. -/
  short : ∀ n, (p.delay n).nanos < Span.limit

theorem delay_mono (p : ReconnectPolicy) : Monotone fun n => (p.delay n).nanos := by
  intro n m hnm
  have hbase : 1 ≤ max p.multiplier.toNat 1 := Nat.le_max_right _ _
  have hpower : Nat.pow (max p.multiplier.toNat 1) (n - 1) ≤
      Nat.pow (max p.multiplier.toNat 1) (m - 1) :=
    Nat.pow_le_pow_right hbase (Nat.sub_le_sub_right hnm 1)
  apply min_le_min_left
  apply Nat.mul_le_mul_left
  exact min_le_min_right maxFactor hpower

theorem delay_le_ceiling (p : ReconnectPolicy) (n : Nat) :
    (p.delay n).nanos ≤ p.maxDelay.nanos :=
  Nat.min_le_left _ _

theorem delayFor_of_le {p : ReconnectPolicy} (hceiling : p.maxDelay.nanos < Span.limit) {n : Nat}
    (hpos : 1 ≤ n) (hle : n ≤ p.maxAttempts.toNat) : p.delayFor n = some (p.delay n) := by
  have hpower := saturatingPower_eq (max p.multiplier.toNat 1) (n - 1) (Nat.le_max_right _ _)
  rw [delayFor, if_neg (by omega), hpower, delay]
  dsimp only
  split
  next hlong =>
    -- a wait that cannot be represented is above the ceiling, which can
    rw [Nat.min_eq_left (by omega)]
  next => rw [Nat.min_comm]

theorem paced_of_fits {p : ReconnectPolicy} (fits : p.Fits) : p.Paced where
  asked _ hpos hle := delayFor_of_le fits.ceiling hpos hle
  spent _ hlt := if_pos (.inr hlt)
  grows := p.delay_mono
  capped := p.delay_le_ceiling
  short n := Nat.lt_of_le_of_lt (p.delay_le_ceiling n) fits.ceiling

/-- What a client does to face the attempt of this number: it waits for it, or dials at once. -/
def opening (p : ReconnectPolicy) : Nat → List Deed
  | 0 => [.dial]
  | n + 1 => [.wait (p.delay (n + 1))]

/-- What a client does to make the attempt of this number. -/
def attempt (p : ReconnectPolicy) : Nat → List Deed
  | 0 => [.dial]
  | n + 1 => [.wait (p.delay (n + 1)), .dial]

theorem opening_subset (p : ReconnectPolicy) (n : Nat) : p.opening n ⊆ p.attempt n := by
  cases n with
  | zero => exact List.Subset.refl _
  | succ n => exact List.subset_append_left [Deed.wait (p.delay (n + 1))] [Deed.dial]

/-- What a client does to make so many attempts, from the one of number `first` on. -/
def schedule (p : ReconnectPolicy) (first count : Nat) : List Deed :=
  (List.range' first count).flatMap p.attempt

theorem schedule_succ (p : ReconnectPolicy) (first count : Nat) :
    p.schedule first (count + 1) = p.attempt first ++ p.schedule (first + 1) count := by
  rw [schedule, List.range'_succ, List.flatMap_cons, schedule]

theorem schedule_concat (p : ReconnectPolicy) (first count : Nat) :
    p.schedule first (count + 1) = p.schedule first count ++ p.attempt (first + count) := by
  rw [schedule, List.range'_1_concat, List.flatMap_append, schedule, List.flatMap_singleton]

end ReconnectPolicy

/-! ## What a client is told, and what it does -/

/-- The outcome of a dial that brings up a line. -/
def DialOutcome.up : DialOutcome := .opened (some .connected)

/-- The number of dials that bring up no line, before the first one that does. -/
def DialOutcome.misses (outcomes : List DialOutcome) : Nat :=
  (outcomes.takeWhile (· ≠ up)).length

theorem DialOutcome.split_misses {outcomes : List DialOutcome} {count : Nat}
    (h : count ≤ DialOutcome.misses outcomes) :
    ∃ misses later, outcomes = misses ++ later ∧ misses.length = count ∧
      ∀ outcome ∈ misses, outcome ≠ .up := by
  have hwhile : outcomes.takeWhile (· ≠ .up) <+: outcomes := List.takeWhile_prefix _
  have hlength : (outcomes.take count).length = count :=
    List.length_take_of_le (Nat.le_trans h hwhile.length_le)
  have hwithin : outcomes.take count <+: outcomes.takeWhile (· ≠ .up) :=
    List.prefix_of_prefix_length_le (List.take_prefix count outcomes) hwhile (by rwa [hlength])
  refine ⟨outcomes.take count, outcomes.drop count, (List.take_append_drop ..).symm, hlength, ?_⟩
  intro outcome hmem
  simpa using List.mem_takeWhile_imp (hwithin.subset hmem)

theorem DialOutcome.split_connects {outcomes : List DialOutcome}
    (h : DialOutcome.misses outcomes < outcomes.length) :
    ∃ misses later, outcomes = misses ++ .up :: later ∧
      misses.length = DialOutcome.misses outcomes ∧ ∀ outcome ∈ misses, outcome ≠ .up := by
  have hsplit := List.takeWhile_append_dropWhile (p := fun o => decide (o ≠ .up)) (l := outcomes)
  have hhead := List.head?_dropWhile_not (fun o => decide (o ≠ .up)) outcomes
  cases hrest : outcomes.dropWhile fun o => decide (o ≠ .up) with
  | nil =>
    rw [hrest, List.append_nil] at hsplit
    rw [DialOutcome.misses, hsplit] at h
    exact absurd h (Nat.lt_irrefl _)
  | cons outcome later =>
    rw [hrest] at hsplit hhead
    obtain rfl : outcome = .up := by simpa using hhead
    refine ⟨_, later, hsplit.symm, rfl, fun o ho => ?_⟩
    simpa using List.mem_takeWhile_imp ho

/-- What a client is told that makes attempts from this number on, and is not asked to stop: the
wait is over, where there is one, and then how the dial went. -/
def Stimulus.ofOutcomes : Nat → List DialOutcome → List Stimulus
  | _, [] => []
  | 0, outcome :: rest => .dialed outcome :: ofOutcomes 1 rest
  | n + 1, outcome :: rest => .waited :: .dialed outcome :: ofOutcomes (n + 2) rest

theorem Stimulus.ofOutcomes_cases {first : Nat} {outcomes : List DialOutcome} {s : Stimulus}
    (h : s ∈ Stimulus.ofOutcomes first outcomes) :
    s = .waited ∨ ∃ outcome, s = .dialed outcome := by
  fun_induction Stimulus.ofOutcomes first outcomes with
  | case1 => cases h
  | case2 outcome rest ih =>
    rcases List.mem_cons.mp h with rfl | h
    · exact .inr ⟨outcome, rfl⟩
    · exact ih h
  | case3 n outcome rest ih =>
    rcases List.mem_cons.mp h with rfl | h
    · exact .inl rfl
    · rcases List.mem_cons.mp h with rfl | h
      · exact .inr ⟨outcome, rfl⟩
      · exact ih h

/-- What a client is busy with that faces the attempt of this number. -/
def Phase.facing : Nat → Phase
  | 0 => .dialing 0
  | n + 1 => .waiting (n + 1)

/-- Whether a deed takes or closes a line. -/
def Deed.handlesLine : Deed → Bool
  | .take _ | .close _ => true
  | _ => false

namespace Client

/-- The client has no line and is to dial. -/
structure Offline (c : Client) : Prop where
  line : c.line = none
  state : c.state = .connecting ∨ c.state = .reconnecting

/-- What the client has done since it was `c`, apart from taking and closing lines. -/
def HasDone (c next : Client) (deeds : List Deed) : Prop :=
  ∃ all, next.log = c.log ++ all ∧ all.filter (!·.handlesLine) = deeds

/-- How the attempts go of a client that begins with the one of number `first`, and stands at
`start` when it faces it. The last attempt that there is has the number `maxAttempts`. -/
structure FollowsSchedule (c start : Client) (first : Nat) (outcomes : List DialOutcome) :
    Prop where
  /-- As long as no line comes up and attempts are left, the next one is waited for. -/
  goesOn : DialOutcome.misses outcomes = outcomes.length →
    first + outcomes.length ≤ c.policy.maxAttempts.toNat →
    let next := start.run (Stimulus.ofOutcomes first outcomes)
    let number := first + outcomes.length
    next.phase = .facing number ∧ number + 1 < UInt32.size ∧ next.state = c.state ∧
      c.HasDone next (c.policy.schedule first outcomes.length ++ c.policy.opening number)
  /-- The first line that comes up is kept, there is one join on it, and there are no more dials. -/
  connects : DialOutcome.misses outcomes < outcomes.length →
    first + DialOutcome.misses outcomes ≤ c.policy.maxAttempts.toNat →
    let next := start.run (Stimulus.ofOutcomes first outcomes)
    next.phase = .serving ∧ next.state = .authenticating ∧
      ∃ line, next.line = some line ∧
        c.HasDone next (c.policy.schedule first (DialOutcome.misses outcomes + 1) ++
          [.send line (.signal (Machine.joinFrame c.machine.config))])
  /-- When the last attempt has missed the session fails for it, and there are no more dials. -/
  givesUp : c.policy.maxAttempts.toNat < first + DialOutcome.misses outcomes →
    let next := start.run (Stimulus.ofOutcomes first outcomes)
    next.phase = .stopped ∧ next.state = .failed ∧ next.line = none ∧
      c.HasDone next (c.policy.schedule first (c.policy.maxAttempts.toNat + 1 - first) ++
        [.notify (.failed (.connect (.retriesExhausted c.policy.maxAttempts)))])

theorem HasDone.of_eq {c next : Client} {deeds : List Deed} (h : next.log = c.log ++ deeds)
    (hplain : ∀ d ∈ deeds, d.handlesLine = false) : c.HasDone next deeds :=
  ⟨deeds, h, List.filter_eq_self.mpr (by simpa using hplain)⟩

theorem HasDone.trans {c mid next : Client} {first second : List Deed} (h : c.HasDone mid first)
    (h' : mid.HasDone next second) : c.HasDone next (first ++ second) := by
  obtain ⟨all, hlog, rfl⟩ := h
  obtain ⟨more, hlog', rfl⟩ := h'
  refine ⟨all ++ more, ?_, List.filter_append ..⟩
  rw [hlog', hlog, List.append_assoc]

/-! ## One attempt -/

/-- Where a client stands that faces the attempt of this number, or finds that there is none. -/
def facing (c : Client) : Nat → Client
  | 0 => c.dial 0
  | n + 1 => c.redialed (n + 1)

/-- Where a client stands that has made the attempt of this number. -/
def called (c : Client) (number : Nat) : Client :=
  { c with phase := .dialing number, deeds := c.deeds ++ c.policy.attempt number }

variable {c : Client}

theorem facing_of_le (fits : c.policy.Fits) {number : Nat}
    (hle : number ≤ c.policy.maxAttempts.toNat) :
    c.facing number =
      { c with phase := .facing number, deeds := c.deeds ++ c.policy.opening number } := by
  cases number with
  | zero => simp [facing, dial, act, Phase.facing, ReconnectPolicy.opening]
  | succ n =>
    have hdelay := c.policy.delayFor_of_le fits.ceiling (Nat.succ_pos n) hle
    simp [facing, redialed, hdelay, Phase.facing, ReconnectPolicy.opening]

theorem run_facing (fits : c.policy.Fits) {number : Nat}
    (hle : number ≤ c.policy.maxAttempts.toNat) (outcome : DialOutcome)
    (rest : List DialOutcome) :
    (c.facing number).run (Stimulus.ofOutcomes number (outcome :: rest)) =
      ((c.called number).step (.dialed outcome)).run (Stimulus.ofOutcomes (number + 1) rest) := by
  rw [facing_of_le fits hle]
  cases number with
  | zero => rfl
  | succ n =>
    have hwaited : ({ c with
        phase := .facing (n + 1), deeds := c.deeds ++ c.policy.opening (n + 1) } : Client).step
        .waited = c.called (n + 1) := by
      simp [step, Phase.facing, dial, act, called, ReconnectPolicy.opening, ReconnectPolicy.attempt]
    show ((_ : Client).step .waited).run _ = _
    rw [hwaited]
    rfl

theorem step_called_of_down (h : c.Offline) (number : Nat) {outcome : DialOutcome}
    (down : outcome ≠ .up) :
    (c.called number).step (.dialed outcome) =
      ((c.called number).turnedAway outcome).facing (number + 1) :=
  step_dialed_of_down (c := c.called number) rfl h.line h.state down

/-- What remains of a client when its dials have missed: only its log has grown, and the number of
the lines that it was handed. -/
structure Remains (c base : Client) (deeds : List Deed) : Prop where
  policy : base.policy = c.policy
  machine : base.machine = c.machine
  line : base.line = none
  done : c.HasDone base deeds

theorem Remains.offline {base : Client} {deeds : List Deed} (h : c.Remains base deeds)
    (offline : c.Offline) : base.Offline where
  line := h.line
  state := by
    rw [Client.state, h.machine]
    exact offline.state

theorem Remains.trans {mid base : Client} {first second : List Deed} (h : c.Remains mid first)
    (h' : mid.Remains base second) : c.Remains base (first ++ second) where
  policy := h'.policy.trans h.policy
  machine := h'.machine.trans h.machine
  line := h'.line
  done := h.done.trans h'.done

theorem handlesLine_of_mem_attempt {p : ReconnectPolicy} {number : Nat} {d : Deed}
    (h : d ∈ p.attempt number) : d.handlesLine = false := by
  cases number with
  | zero =>
    obtain rfl : d = .dial := by simpa [ReconnectPolicy.attempt] using h
    rfl
  | succ n =>
    obtain rfl | rfl : d = .wait (p.delay (n + 1)) ∨ d = .dial := by
      simpa [ReconnectPolicy.attempt] using h
    · rfl
    · rfl

theorem hasDone_called (c : Client) (number : Nat) :
    c.HasDone (c.called number) (c.policy.attempt number) :=
  .of_eq (by simp [called, log]) fun _ => handlesLine_of_mem_attempt

theorem remains_missed (h : c.Offline) (number : Nat) (outcome : DialOutcome) :
    c.Remains ((c.called number).turnedAway outcome) (c.policy.attempt number) := by
  refine ⟨rfl, rfl, h.line, ?_⟩
  have hturned : (c.called number).HasDone ((c.called number).turnedAway outcome) [] := by
    refine ⟨outcome.turnedAway (c.called number).taken, by simp [turnedAway, log], ?_⟩
    cases outcome <;> rfl
  rw [← List.append_nil (c.policy.attempt number)]
  exact (c.hasDone_called number).trans hturned

/-! ## All attempts -/

/-- After dials that miss a client faces the attempt of the next number, whatever comes then. -/
theorem run_misses (h : c.Offline) (fits : c.policy.Fits) (misses : List DialOutcome)
    (down : ∀ outcome ∈ misses, outcome ≠ .up) (first : Nat)
    (hle : first + misses.length ≤ c.policy.maxAttempts.toNat + 1) :
    ∃ base, c.Remains base (c.policy.schedule first misses.length) ∧
      ∀ rest, (c.facing first).run (Stimulus.ofOutcomes first (misses ++ rest)) =
        (base.facing (first + misses.length)).run
          (Stimulus.ofOutcomes (first + misses.length) rest) := by
  induction misses generalizing c first with
  | nil => exact ⟨c, ⟨rfl, rfl, h.line, [], by simp, rfl⟩, fun _ => rfl⟩
  | cons outcome more ih =>
    rw [List.length_cons] at hle
    have honce := remains_missed h first outcome
    obtain ⟨base, hremains, hrun⟩ := ih (honce.offline h) (by rwa [honce.policy])
      (fun o ho => down o (List.mem_cons_of_mem _ ho)) (first + 1)
      (by rw [honce.policy]; omega)
    rw [honce.policy] at hremains
    refine ⟨base, ?_, fun rest => ?_⟩
    · rw [List.length_cons, ReconnectPolicy.schedule_succ]
      exact honce.trans hremains
    · have hfirst : first + 1 + more.length = first + (more.length + 1) := by omega
      rw [List.cons_append, run_facing fits (by omega),
        step_called_of_down h first (down outcome List.mem_cons_self), hrun rest, hfirst,
        List.length_cons]

theorem run_of_ignored {stimuli : List Stimulus} (h : ∀ s ∈ stimuli, c.step s = c) :
    c.run stimuli = c := by
  induction stimuli with
  | nil => rfl
  | cons s rest ih =>
    show (c.step s).run rest = c
    rw [h s List.mem_cons_self]
    exact ih fun t ht => h t (List.mem_cons_of_mem s ht)

/-- A client that has stopped, or serves over a line, takes no notice of dials. -/
theorem run_ofOutcomes_of_done
    (h : c.phase = .stopped ∨ c.phase = .serving ∧ c.line.isSome = true) (first : Nat)
    (outcomes : List DialOutcome) : c.run (Stimulus.ofOutcomes first outcomes) = c := by
  refine run_of_ignored fun s hs => ?_
  rcases h with hphase | ⟨hphase, hline⟩
  · simp only [step, hphase]
  · obtain ⟨line, hline⟩ := Option.isSome_iff_exists.mp hline
    obtain rfl | ⟨outcome, rfl⟩ := Stimulus.ofOutcomes_cases hs
    · simp only [step, hphase, serve, retire_of_up hline]
    · simp only [step, hphase, serve, retire_of_up hline]

theorem waits_of_le (fits : c.policy.Fits) {number : Nat}
    (hle : number ≤ c.policy.maxAttempts.toNat) :
    (c.facing number).phase = .facing number ∧ (c.facing number).state = c.state ∧
      c.HasDone (c.facing number) (c.policy.opening number) := by
  rw [facing_of_le fits hle]
  refine ⟨rfl, rfl, .of_eq (by simp [log]) fun d hd => ?_⟩
  exact handlesLine_of_mem_attempt (c.policy.opening_subset number hd)

/-- An attempt that brings up a line ends the dialing with a join on it. -/
theorem connects_of_up (h : c.Offline) (fits : c.policy.Fits) {number : Nat}
    (hle : number ≤ c.policy.maxAttempts.toNat) (rest : List DialOutcome) :
    let next := (c.facing number).run (Stimulus.ofOutcomes number (.up :: rest))
    next.phase = .serving ∧ next.state = .authenticating ∧
      ∃ line, next.line = some line ∧
        c.HasDone next (c.policy.attempt number ++
          [.send line (.signal (Machine.joinFrame c.machine.config))]) := by
  intro next
  have hstep := step_dialed_of_up (c := c.called number) rfl h.state
  have hnext : next = (c.called number).step (.dialed .up) := by
    refine (run_facing fits hle .up rest).trans (run_ofOutcomes_of_done ?_ _ rest)
    rw [DialOutcome.up, hstep]
    exact .inr ⟨rfl, rfl⟩
  rw [DialOutcome.up, hstep] at hnext
  rw [hnext]
  refine ⟨rfl, rfl, c.taken, rfl, (c.hasDone_called number).trans ?_⟩
  exact ⟨[.take c.taken, .send c.taken (.signal (Machine.joinFrame c.machine.config))],
    by simp [log, called], rfl⟩

/-- A client that faces a number beyond the schedule has failed, and that was its last news. -/
theorem givesUp_of_spent (h : c.Offline) {number : Nat}
    (hspent : c.policy.maxAttempts.toNat < number) (rest : List DialOutcome) :
    let next := (c.facing number).run (Stimulus.ofOutcomes number rest)
    next.phase = .stopped ∧ next.state = .failed ∧ next.line = none ∧
      c.HasDone next [.notify c.exhausted] := by
  intro next
  obtain ⟨n, rfl⟩ : ∃ n, number = n + 1 := Nat.exists_eq_add_one.mpr (by omega)
  have hdelay : c.policy.delayFor (n + 1) = none := if_pos (.inr hspent)
  have hfacing : c.facing (n + 1) =
      { c with
        machine := { c.machine with state := .failed }
        phase := .stopped
        deeds := c.deeds.push (.notify c.exhausted) } := by
    simp [facing, redialed, hdelay]
  have hnext : next = c.facing (n + 1) := by
    apply run_ofOutcomes_of_done
    rw [hfacing]
    exact .inl rfl
  rw [hnext, hfacing]
  exact ⟨rfl, rfl, h.line, .of_eq (by simp [log]) (by simp [Deed.handlesLine])⟩

theorem followsSchedule_facing (h : c.Offline) (fits : c.policy.Fits) {first : Nat}
    (hfirst : first ≤ c.policy.maxAttempts.toNat + 1) (outcomes : List DialOutcome) :
    c.FollowsSchedule (c.facing first) first outcomes where
  goesOn hall hle := by
    have down : ∀ outcome ∈ outcomes, outcome ≠ .up := by
      have hcount := Nat.le_of_eq hall.symm
      obtain ⟨misses, later, rfl, hlength, down⟩ := DialOutcome.split_misses hcount
      obtain rfl : later = [] := by simpa using hlength
      rwa [List.append_nil]
    obtain ⟨base, hremains, hrun⟩ := run_misses h fits outcomes down first (by omega)
    have hnext : (c.facing first).run (Stimulus.ofOutcomes first outcomes) =
        base.facing (first + outcomes.length) := by
      simpa [Stimulus.ofOutcomes, run] using hrun []
    have hnumber : first + outcomes.length ≤ base.policy.maxAttempts.toNat := by
      rwa [hremains.policy]
    obtain ⟨hphase, hstate, hdone⟩ := base.waits_of_le (by rwa [hremains.policy]) hnumber
    rw [hremains.policy] at hdone
    intro next number
    rw [show next = _ from hnext]
    refine ⟨hphase, ?_, hstate.trans (congrArg Machine.state hremains.machine),
      hremains.done.trans hdone⟩
    exact Nat.lt_of_le_of_lt (Nat.succ_le_succ hle) (Nat.add_lt_of_lt_sub fits.attempts)
  connects hfirstUp hle := by
    obtain ⟨misses, later, rfl, hlength, down⟩ := DialOutcome.split_connects hfirstUp
    rw [← hlength] at hle ⊢
    obtain ⟨base, hremains, hrun⟩ := run_misses h fits misses down first (by omega)
    have hnumber : first + misses.length ≤ base.policy.maxAttempts.toNat := by
      rwa [hremains.policy]
    obtain ⟨hphase, hstate, line, hline, hdone⟩ :=
      connects_of_up (hremains.offline h) (by rwa [hremains.policy]) hnumber later
    rw [hremains.policy, hremains.machine] at hdone
    intro next
    rw [show next = _ from hrun _]
    refine ⟨hphase, hstate, line, hline, ?_⟩
    rw [ReconnectPolicy.schedule_concat, List.append_assoc]
    exact hremains.done.trans hdone
  givesUp hspent := by
    have hcount : c.policy.maxAttempts.toNat + 1 - first ≤ DialOutcome.misses outcomes := by omega
    obtain ⟨misses, later, rfl, hlength, down⟩ := DialOutcome.split_misses hcount
    obtain ⟨base, hremains, hrun⟩ := run_misses h fits misses down first (by omega)
    have hnumber : base.policy.maxAttempts.toNat < first + misses.length := by
      rw [hremains.policy, hlength]
      omega
    obtain ⟨hphase, hstate, hline, hdone⟩ :=
      givesUp_of_spent (hremains.offline h) hnumber later
    rw [exhausted, hremains.policy] at hdone
    intro next
    rw [show next = _ from hrun later, ← hlength]
    exact ⟨hphase, hstate, hline, hremains.done.trans hdone⟩

/-- **Dialing keeps to the schedule.** However the dials go, a client that dials again waits before
each attempt for as long as the formula says, up to the first line that comes up or the last attempt
of the policy; and a client that dials at once does the same after one more dial, without a wait. -/
theorem dials_by_schedule (h : c.Offline) (fits : c.policy.Fits) :
    c.policy.Paced ∧
      (∀ outcomes, c.FollowsSchedule (c.redial 1).retire 1 outcomes) ∧
      (∀ outcomes, c.FollowsSchedule (c.dial 0) 0 outcomes) ∧
      ∀ count, c.policy.schedule 0 (count + 1) = .dial :: c.policy.schedule 1 count := by
  have hredial : (c.redial 1).retire = c.facing 1 :=
    retire_redial (isTerminal_of_dialing h.state) h.line 1
  refine ⟨c.policy.paced_of_fits fits, fun outcomes => ?_, fun outcomes => ?_, fun count => ?_⟩
  · rw [hredial]
    exact followsSchedule_facing h fits (Nat.succ_le_succ (Nat.zero_le _)) outcomes
  · exact followsSchedule_facing h fits (Nat.zero_le _) outcomes
  · rw [ReconnectPolicy.schedule_succ]
    rfl

/-- Of two attempts one is refused and one never answered; a third outcome goes unnoticed. -/
theorem dials_by_schedule_of_two :
    let descriptor : Descriptor :=
      { meetingId := "m", externalMeetingId := "", credentials := ⟨"a", "", "t"⟩
        audioHostUrl := "", signalingUrl := ⟨"ws://h", by decide⟩ }
    let c : Client :=
      { policy := { maxAttempts := 2 }
        machine := { Machine.new descriptor {} 0 with state := .reconnecting } }
    c.Offline ∧ c.policy.Fits ∧
      c.HasDone ((c.redial 1).retire.run
          [.waited, .dialed .refused, .waited, .dialed .timedOut, .waited, .dialed .up])
        [.wait (.ofMillis 250), .dial, .wait (.ofMillis 500), .dial,
          .notify (.failed (.connect (.retriesExhausted 2)))] := by
  intro descriptor c
  have offline : c.Offline := ⟨rfl, .inr rfl⟩
  have fits : c.policy.Fits := ⟨by decide, by decide⟩
  obtain ⟨-, again, -⟩ := dials_by_schedule offline fits
  obtain ⟨-, -, -, hdone⟩ := (again [.refused, .timedOut, .up]).givesUp (by decide)
  have hdeeds : c.policy.schedule 1 2 ++
      [.notify (.failed (.connect (.retriesExhausted c.policy.maxAttempts)))] =
        [.wait (.ofMillis 250), .dial, .wait (.ofMillis 500), .dial,
          .notify (.failed (.connect (.retriesExhausted 2)))] := by
    decide
  exact ⟨offline, fits, hdeeds ▸ hdone⟩

/-! ## Where the dialing begins -/

/-- A client dials by the schedule from its beginning on. -/
theorem followsSchedule_of_begin (h : c.Settled) (hphase : c.phase = .idle)
    (fits : c.policy.Fits) (outcomes : List DialOutcome) :
    ∃ base : Client, base.log = c.log ∧ base.policy = c.policy ∧
      base.FollowsSchedule (c.step .begin) 0 outcomes := by
  obtain ⟨hline, hstate⟩ : c.line = none ∧ c.state = .disconnected := by
    simpa [Settled, hphase] using h
  refine ⟨c.begun, rfl, rfl, ?_⟩
  rw [step_begin hphase hstate]
  have offline : c.begun.Offline := ⟨hline, .inl rfl⟩
  exact followsSchedule_facing offline fits (Nat.zero_le _) outcomes

/-- A client that loses its line dials by the schedule, from the first attempt on. -/
theorem followsSchedule_of_losesLine (h : c.Settled) {s : Stimulus} (hs : c.losesLine s = true)
    (fits : c.policy.Fits) (outcomes : List DialOutcome) :
    ∃ (line : Nat) (base : Client), c.line = some line ∧ base.log = c.log ++ [.close line] ∧
      base.policy = c.policy ∧ base.FollowsSchedule (c.step s) 1 outcomes := by
  obtain ⟨line, up, hstate, hstep⟩ := step_of_losesLine h hs
  refine ⟨line, c.cutOff line, up, by simp [cutOff, log], rfl, ?_⟩
  rw [hstep]
  have offline : (c.cutOff line).Offline := ⟨rfl, .inr hstate⟩
  exact followsSchedule_facing offline fits (Nat.succ_le_succ (Nat.zero_le _)) outcomes

end Client

end Parley
