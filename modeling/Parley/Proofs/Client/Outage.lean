import Parley.Proofs.Client.Redial

/-!
# `Parley/Proofs/Client/Outage.lean` — how often a client dials

An outage lasts from one time that the client is joined to the next. There is a budget of dials for
it, and an extra one before the client is joined for the first time. The `Outage` is the account of
one: the dials that were made, and whether a line was **dropped**, that is, came up and was lost
before the join was answered.

A dropped line makes the attempts be counted anew, and so the budget is kept exactly if no line was
dropped in the outage whenever the client is cut off and has used it up (`keepsBudget_iff`). A
service that takes each line and drops it keeps the client dialing for ever (`dials_of_lured`).
-/

set_option autoImplicit false

namespace Parley

/-! ## The account of an outage -/

/-- What has happened since the client was joined last, or from the beginning on. -/
structure Outage where
  /-- Whether the client was joined before. -/
  joined : Bool := false
  dials : Nat := 0
  /-- Whether a dial, the first one of all apart, has brought up a line that was lost before the
  join was answered. -/
  dropped : Bool := false
  deriving DecidableEq

/-- The dial that no outage has made necessary. -/
def Outage.extra (o : Outage) : Nat := if o.joined then 0 else 1

/-- The dials that there may be in an outage, and before the client is joined for the first time. -/
def ReconnectPolicy.budget (p : ReconnectPolicy) (o : Outage) : Nat :=
  p.maxAttempts.toNat + o.extra

theorem Outage.extra_le (o : Outage) : o.extra ≤ 1 := by
  unfold extra
  split <;> decide

theorem ReconnectPolicy.delayFor_eq_none_iff {p : ReconnectPolicy} {attempt : Nat}
    (h : 1 ≤ attempt) : p.delayFor attempt = none ↔ p.maxAttempts.toNat < attempt := by
  unfold delayFor
  constructor
  · intro hnone
    by_contra hle
    rw [if_neg (by omega)] at hnone
    cases hnone
  · intro hlt
    rw [if_pos (.inr hlt)]

theorem ReconnectPolicy.le_of_delayFor {p : ReconnectPolicy} {attempt : Nat} {delay : Span}
    (h : 1 ≤ attempt) (hdelay : p.delayFor attempt = some delay) :
    attempt ≤ p.maxAttempts.toNat := by
  by_contra hgreater
  rw [(delayFor_eq_none_iff h).mpr (Nat.not_le.mp hgreater)] at hdelay
  cases hdelay

/-- The line is lost before the join was answered. -/
def Client.dropsLine (c : Client) (s : Stimulus) : Bool :=
  c.losesLine s && c.state == .authenticating

/-- The account after one more stimulus. -/
def Outage.after (o : Outage) (c : Client) (s : Stimulus) : Outage :=
  if (c.step s).state = .joined then { joined := true }
  else
    { o with
      dials := o.dials + (c.deedsOf s).count .dial
      dropped := o.dropped || c.dropsLine s && decide (o.extra < o.dials) }

namespace Client

def outageFrom (o : Outage) (c : Client) : List Stimulus → Outage
  | [] => o
  | s :: rest => outageFrom (o.after c s) (c.step s) rest

/-- The account of a run of a client. -/
def outageOf (c : Client) (stimuli : List Stimulus) : Outage := outageFrom {} c stimuli

theorem outageOf_concat (c : Client) (stimuli : List Stimulus) (s : Stimulus) :
    c.outageOf (stimuli ++ [s]) = (c.outageOf stimuli).after (c.run stimuli) s := by
  unfold outageOf
  generalize ({} : Outage) = o
  induction stimuli generalizing c o with
  | nil => rfl
  | cons t rest ih => exact ih (c.step t) (o.after c t)

/-- No more dials than the budget has, and a client that is cut off when it has used them up fails
for want of attempts. (A client that is refused or leaves is not cut off: its session is over.) -/
structure KeepsBudget (c : Client) (o : Outage) (s : Stimulus) : Prop where
  dials : (o.after c s).dials ≤ c.policy.budget (o.after c s)
  spent : c.isCutOff s = true → o.dials = c.policy.budget o →
    (c.step s).state = .failed ∧ .notify c.exhausted ∈ c.deedsOf s

/-- If the client is cut off when it has used up its budget, no line was dropped. -/
def EndsUndropped (c : Client) (o : Outage) (s : Stimulus) : Prop :=
  c.isCutOff s = true → o.dials = c.policy.budget o → (o.after c s).dropped = false

variable {c : Client} {o : Outage} {s : Stimulus}

/-! ## The numbers of the attempts -/

/-- How the number of an attempt stands to the dials up to it: a line that was dropped has made the
count begin anew. -/
def Counts (o : Outage) (attempt dials : Nat) : Prop :=
  if o.dropped then attempt + o.extra < dials else attempt + o.extra = dials

/-- How a client stands to the account of its outage. -/
def Stands (c : Client) (o : Outage) : Prop :=
  match c.phase with
  | .idle => o = {}
  | .waiting attempt =>
    1 ≤ attempt ∧ attempt ≤ c.policy.maxAttempts.toNat ∧ Counts o attempt (o.dials + 1)
  | .dialing attempt => 1 ≤ o.dials ∧ Counts o attempt o.dials
  | .serving =>
    (c.state = .authenticating → 1 ≤ o.dials ∧ (o.dropped = true → o.extra < o.dials)) ∧
    (c.state = .joined → o = { joined := true })
  | .stopped => True

/-- The dials are within the budget, and none is to come that is not. -/
structure Within (c : Client) (o : Outage) : Prop where
  dials : o.dials ≤ c.policy.budget o
  next : ∀ attempt, c.phase = .waiting attempt → o.dropped = true → o.dials < c.policy.budget o

theorem stands_of_stopped (h : c.phase = .stopped) : c.Stands o := by
  rw [Stands, h]
  trivial

theorem Within.of_not_waiting {next : Client} (h : c.Within o) (hpolicy : next.policy = c.policy)
    (hphase : ∀ attempt, next.phase ≠ .waiting attempt) : next.Within o :=
  ⟨hpolicy ▸ h.dials, fun attempt hwaiting => absurd hwaiting (hphase attempt)⟩

/-- The attempt that a client waits for or makes is one that its policy has. -/
def Numbered (c : Client) : Prop :=
  match c.phase with
  | .waiting attempt | .dialing attempt => attempt ≤ c.policy.maxAttempts.toNat
  | _ => True

theorem numbered_step (hsettled : c.Settled) (h : c.Numbered) (s : Stimulus) :
    (c.step s).Numbered := by
  have turn := (turn_step hsettled s).2
  have hpolicy := policy_step c s
  generalize c.step s = next at turn hpolicy ⊢
  generalize c.deedsOf s = deeds at turn
  cases turn with
  | still _ _ hphase _ _ _ | spoke _ _ _ _ hphase _ _ | admitted _ _ _ _ _ hphase _ _
  | left _ _ _ hphase _ _ =>
    rw [Numbered, hphase, hpolicy]
    exact h
  | began _ _ hphase _ _ =>
    rw [Numbered, hphase]
    exact Nat.zero_le _
  | redialed hwaits _ hphase _ _ =>
    rw [Numbered, hwaits] at h
    rw [Numbered, hphase, hpolicy]
    exact h
  | missed _ _ again _ hphase _ _ =>
    rw [Numbered, hphase, hpolicy]
    exact ReconnectPolicy.le_of_delayFor (Nat.succ_pos _) again
  | lost _ _ again _ hphase _ _ =>
    rw [Numbered, hphase, hpolicy]
    exact ReconnectPolicy.le_of_delayFor (Nat.le_refl 1) again
  | connected _ _ hphase _ _ | gaveUp _ _ _ _ hphase _ _ | withdrew _ _ hphase _ _
  | lostForGood _ _ _ _ hphase _ _ | ended _ _ hphase _ _ =>
    rw [Numbered, hphase]
    trivial

/-! ## One step -/

/-- The session fails for want of attempts exactly if the next one has no place in the schedule. -/
theorem GoesOn.failed_iff {attempt : Nat} (h : c.GoesOn s attempt) (hpos : 1 ≤ attempt) :
    ((c.step s).state = .failed ∧ .notify c.exhausted ∈ c.deedsOf s) ↔
      c.policy.maxAttempts.toNat < attempt := by
  rw [← ReconnectPolicy.delayFor_eq_none_iff hpos]
  cases hdelay : c.policy.delayFor attempt with
  | some delay =>
    have hstate := (h.again delay hdelay).2
    constructor
    · rintro ⟨hfailed, -⟩
      rw [hfailed] at hstate
      rcases hstate with hstate | hstate <;> cases hstate
    · intro hnone
      cases hnone
  | none =>
    obtain ⟨-, hfailed, htold⟩ := h.spent hdelay
    exact ⟨fun _ => rfl, fun _ => ⟨hfailed, htold⟩⟩

/-- That a client is cut off adds to the account only whether a line was dropped. -/
theorem GoesOn.after {attempt : Nat} (h : c.GoesOn s attempt) (o : Outage) :
    o.after c s =
      { o with dropped := o.dropped || c.dropsLine s && decide (o.extra < o.dials) } := by
  have hjoined : (c.step s).state ≠ .joined := by
    cases hdelay : c.policy.delayFor attempt with
    | some delay => rcases (h.again delay hdelay).2 with hstate | hstate <;> simp [hstate]
    | none =>
      rw [(h.spent hdelay).2.1]
      exact Lifecycle.noConfusion
  rw [Outage.after, if_neg hjoined, h.undialed]
  rfl

/-- A client that is cut off goes on to an attempt whose number stands to the dials as the account
says. -/
theorem Stands.goesOn (hstands : c.Stands o) (h : c.Settled) (hs : c.isCutOff s = true) :
    ∃ attempt, 1 ≤ attempt ∧ c.GoesOn s attempt ∧
      Counts (o.after c s) attempt (o.dials + 1) := by
  cases hloses : c.losesLine s with
  | true =>
    -- the next attempt is the first again, whatever was dialed before
    have hgoes := goesOn_of_losesLine h hloses
    refine ⟨1, Nat.le_refl 1, hgoes, ?_⟩
    obtain ⟨⟨line, up⟩, htransport, -⟩ := of_losesLine hloses
    have hserving := h.serving_of_line up
    rw [Stands, hserving] at hstands
    rw [hgoes.after]
    rcases (h.serving hserving).2 with hauth | hjoined | hclosed
    · have hdrops : c.dropsLine s = true := by simp [dropsLine, hloses, hauth]
      obtain ⟨hdials, hdropped⟩ := hstands.1 hauth
      rw [hdrops]
      show if (o.dropped || decide (o.extra < o.dials)) = true then 1 + o.extra < o.dials + 1
        else 1 + o.extra = o.dials + 1
      have hextra := o.extra_le
      by_cases hmore : o.extra < o.dials
      · rw [if_pos (by simp [hmore])]
        omega
      · have hnot : o.dropped = false := Bool.eq_false_iff.mpr fun hd => hmore (hdropped hd)
        rw [if_neg (by simp [hmore, hnot])]
        omega
    · have hdrops : c.dropsLine s = false := by simp [dropsLine, hjoined]
      have hnew := hstands.2 hjoined
      subst hnew
      rw [hdrops]
      rfl
    · rw [hclosed] at htransport
      cases htransport
  | false =>
    have hmisses : c.misses s = true := by simpa [isCutOff, hloses] using hs
    cases hphase : c.phase with
    | dialing attempt =>
      have hgoes := goesOn_of_misses h hphase hmisses
      refine ⟨attempt + 1, Nat.succ_pos attempt, hgoes, ?_⟩
      rw [Stands, hphase] at hstands
      have hcounts : if o.dropped = true then attempt + o.extra < o.dials
        else attempt + o.extra = o.dials := hstands.2
      rw [hgoes.after, dropsLine, hloses, Bool.false_and, Bool.false_and, Bool.or_false]
      show if o.dropped = true then attempt + 1 + o.extra < o.dials + 1
        else attempt + 1 + o.extra = o.dials + 1
      split at hcounts
      · rename_i hdropped
        rw [if_pos hdropped]
        omega
      · rename_i hdropped
        rw [if_neg hdropped]
        omega
    | _ => exact absurd hmisses (by simp [misses, hphase])

/-- When the client is cut off and has used up the budget, the session fails exactly if no line was
dropped. -/
theorem Stands.spent_iff (hstands : c.Stands o) (h : c.Settled) (hs : c.isCutOff s = true)
    (hlast : o.dials = c.policy.budget o) :
    ((c.step s).state = .failed ∧ .notify c.exhausted ∈ c.deedsOf s) ↔
      (o.after c s).dropped = false := by
  obtain ⟨attempt, hpos, hgoes, hcounts⟩ := hstands.goesOn h hs
  rw [hgoes.failed_iff hpos]
  have hextra : (o.after c s).extra = o.extra := by rw [hgoes.after]; rfl
  rw [Counts, hextra, hlast, ReconnectPolicy.budget] at hcounts
  split at hcounts
  · rename_i hdropped
    rw [hdropped]
    exact ⟨fun hlt => absurd hlt (by omega), fun hfalse => absurd hfalse (by decide)⟩
  · rename_i hnot
    exact ⟨fun _ => Bool.eq_false_iff.mpr hnot, fun _ => by omega⟩

theorem stands_of_goesOn (hstands : c.Stands o) (h : c.Settled) (hs : c.isCutOff s = true) :
    (c.step s).Stands (o.after c s) ∧
      (c.Within o → c.EndsUndropped o s → (c.step s).Within (o.after c s)) := by
  obtain ⟨attempt, hpos, hgoes, hcounts⟩ := hstands.goesOn h hs
  have hdials : (o.after c s).dials = o.dials := by rw [hgoes.after]
  have hbudget : (c.step s).policy.budget (o.after c s) = c.policy.budget o := by
    rw [policy_step, hgoes.after]
    rfl
  constructor
  · cases hdelay : c.policy.delayFor attempt with
    | some delay =>
      rw [Stands, (hgoes.again delay hdelay).1, policy_step, hdials]
      exact ⟨hpos, ReconnectPolicy.le_of_delayFor hpos hdelay, hcounts⟩
    | none => exact stands_of_stopped (hgoes.spent hdelay).1
  · intro hwithin hends
    refine ⟨?_, fun _ _ hdropped => ?_⟩
    · rw [hdials, hbudget]
      exact hwithin.dials
    · rw [hdials, hbudget]
      refine Nat.lt_of_le_of_ne hwithin.dials fun hlast => ?_
      rw [hends hs hlast] at hdropped
      cases hdropped

/-! ### What does not cut the client off -/

/-- From one account to the next the client stands to it as it should, and stays within the budget. -/
def Carries (c next : Client) (o o' : Outage) : Prop :=
  next.Stands o' ∧ (c.Within o → next.Within o')

theorem carries_of_joined {next : Client} (h : next.Settled) (hjoined : next.state = .joined) :
    c.Carries next o { joined := true } := by
  refine ⟨?_, fun _ => ⟨Nat.zero_le _, fun _ _ hdropped => Bool.noConfusion hdropped⟩⟩
  unfold Stands
  cases hphase : next.phase with
  | idle => simp [Settled, hphase, hjoined] at h
  | waiting attempt | dialing attempt => simp [Settled, hphase, hjoined] at h
  | serving =>
    refine ⟨fun hauth => ?_, fun _ => rfl⟩
    rw [hjoined] at hauth
    cases hauth
  | stopped => trivial

section

variable {next : Client} {attempt : Nat} (hstands : c.Stands o) (hpolicy : next.policy = c.policy)
include hstands hpolicy

theorem carries_of_same (hphase : next.phase = c.phase) (hstate : next.state = c.state) :
    c.Carries next o o := by
  refine ⟨?_, fun hwithin => ⟨hpolicy ▸ hwithin.dials, ?_⟩⟩
  · rw [Stands, hphase, hpolicy, hstate]
    exact hstands
  · rw [hphase, hpolicy]
    exact hwithin.next

theorem carries_of_redialed (hphase : c.phase = .waiting attempt)
    (hphase' : next.phase = .dialing attempt) :
    c.Carries next o { o with dials := o.dials + 1 } := by
  rw [Stands, hphase] at hstands
  obtain ⟨-, hmax, hcounts⟩ := hstands
  refine ⟨?_, fun hwithin => ⟨?_, fun later hwaiting => ?_⟩⟩
  · rw [Stands, hphase']
    exact ⟨Nat.le_add_left 1 _, hcounts⟩
  · show o.dials + 1 ≤ next.policy.maxAttempts.toNat + o.extra
    rw [hpolicy]
    cases hdropped : o.dropped with
    | true => exact hwithin.next attempt hphase hdropped
    | false =>
      rw [Counts, hdropped] at hcounts
      simp only [Bool.false_eq_true, if_false] at hcounts
      omega
  · rw [hphase'] at hwaiting
    cases hwaiting

theorem carries_of_connected (hphase : c.phase = .dialing attempt)
    (hphase' : next.phase = .serving) (hstate' : next.state = .authenticating) :
    c.Carries next o o := by
  refine ⟨?_, fun hwithin => hwithin.of_not_waiting hpolicy (by simp [hphase'])⟩
  rw [Stands, hphase] at hstands
  obtain ⟨hdials, hcounts⟩ := hstands
  rw [Stands, hphase']
  refine ⟨fun _ => ⟨hdials, fun hdropped => ?_⟩, fun hjoined => ?_⟩
  · rw [Counts, if_pos hdropped] at hcounts
    omega
  · rw [hstate'] at hjoined
    cases hjoined

theorem carries_of_lost (hphase : c.phase = .serving) (hjoined : c.state = .joined)
    (hphase' : next.phase = .waiting 1) {delay : Span}
    (hdelay : c.policy.delayFor 1 = some delay) : c.Carries next o o := by
  rw [Stands, hphase] at hstands
  have hnew := hstands.2 hjoined
  subst hnew
  refine ⟨?_, fun _ => ⟨Nat.zero_le _, fun _ _ hdropped => Bool.noConfusion hdropped⟩⟩
  rw [Stands, hphase', hpolicy]
  exact ⟨Nat.le_refl 1, ReconnectPolicy.le_of_delayFor (Nat.le_refl 1) hdelay, rfl⟩

end

/-- What does not cut the client off carries it from one account to the next. -/
theorem carries_of_turn (hstands : c.Stands o) (h : c.Settled) (hs : c.isCutOff s = false) :
    c.Carries (c.step s) o (o.after c s) := by
  obtain ⟨hmisses, hloses⟩ : c.misses s = false ∧ c.losesLine s = false := by
    simpa [isCutOff] using hs
  have turn := (turn_step h s).2
  by_cases hjoined : (c.step s).state = .joined
  · rw [Outage.after, if_pos hjoined]
    exact carries_of_joined (turn.settled h) hjoined
  have hafter : o.after c s = { o with dials := o.dials + (c.deedsOf s).count .dial } := by
    rw [Outage.after, if_neg hjoined, dropsLine, hloses]
    simp
  rw [hafter]
  have hpolicy := c.policy_step s
  have hcalm (waits : c.state = .authenticating) (hphase : c.phase = .serving)
      (hstays : s.hangsUp = false) : (c.step s).state ≠ .reconnecting :=
    state_step_of_not_hangsUp waits hphase hstays
  generalize c.step s = next at turn hjoined hpolicy hcalm
  generalize c.deedsOf s = deeds at turn
  have hundialed (hdials : .dial ∉ deeds) (hcarries : c.Carries next o o) :
      c.Carries next o { o with dials := o.dials + deeds.count .dial } := by
    rw [List.count_eq_zero.mpr hdials]
    exact hcarries
  have hstopped (hphase : next.phase = .stopped) : c.Carries next o o :=
    ⟨stands_of_stopped hphase, fun hwithin => hwithin.of_not_waiting hpolicy (by simp [hphase])⟩
  cases turn with
  | still _ hstate hphase _ _ reports =>
    refine hundialed (fun hmem => ?_) (carries_of_same hstands hpolicy hphase hstate)
    exact absurd (reports _ hmem) (by decide)
  | spoke _ _ _ hstate hphase _ _ =>
    exact hundialed (by simp) (carries_of_same hstands hpolicy hphase hstate)
  | withdrew _ _ hphase _ _ => exact hundialed (by simp) (hstopped hphase)
  | lostForGood _ _ _ _ hphase _ _ => exact hundialed (by simp) (hstopped hphase)
  | @ended _ _ _ earlier later _ news hphase _ _ =>
    refine hundialed (fun hmem => ?_) (hstopped hphase)
    have hnews : .dial ∈ earlier ++ later := by simpa using hmem
    exact absurd (news _ hnews) (by decide)
  | missed hphase down _ _ _ _ _ => exact absurd hmisses (by simp [misses, hphase, down])
  | gaveUp hphase down _ _ _ _ _ => exact absurd hmisses (by simp [misses, hphase, down])
  | admitted _ _ _ _ hstate _ _ _ => exact absurd hstate hjoined
  | began hphase _ hphase' _ _ =>
    rw [Stands, hphase] at hstands
    subst hstands
    refine ⟨?_, fun _ => ⟨Nat.le_add_left 1 _, fun attempt hwaiting => ?_⟩⟩
    · rw [Stands, hphase']
      exact ⟨Nat.le_refl 1, rfl⟩
    · rw [hphase'] at hwaiting
      cases hwaiting
  | redialed hphase _ hphase' _ _ => exact carries_of_redialed hstands hpolicy hphase hphase'
  | connected hphase hstate hphase' _ _ =>
    exact hundialed (by simp) (carries_of_connected hstands hpolicy hphase hphase' hstate)
  | lost up live hdelay hstate hphase _ _ =>
    have hserving := h.serving_of_line up
    have hnow : c.state = .joined := by
      rcases (h.serving hserving).2 with hauth | hjoined | hclosed
      · -- the line of a client that waits for the answer is lost by a hang-up only
        have hstays : s.hangsUp = false := by
          simpa [losesLine, up, hauth, Lifecycle.hasTransport] using hloses
        exact absurd hstate (hcalm hauth hserving hstays)
      · exact hjoined
      · rw [hclosed] at live
        cases live
    exact hundialed (by simp) (carries_of_lost hstands hpolicy hserving hnow hphase hdelay)
  | left up _ hstate' hphase _ _ =>
    have hserving := h.serving_of_line up
    refine hundialed (by simp) ⟨?_, fun hwithin => ?_⟩
    · rw [Stands, hphase, hserving]
      refine ⟨fun hauth => ?_, fun hstate => absurd hstate hjoined⟩
      rw [hstate'] at hauth
      cases hauth
    · exact hwithin.of_not_waiting hpolicy (by simp [hphase, hserving])

theorem stands_step (hstands : c.Stands o) (h : c.Settled) (s : Stimulus) :
    (c.step s).Stands (o.after c s) ∧
      (c.Within o → c.EndsUndropped o s → (c.step s).Within (o.after c s)) := by
  cases hs : c.isCutOff s with
  | true => exact stands_of_goesOn hstands h hs
  | false =>
    obtain ⟨hnext, hwithin⟩ := carries_of_turn hstands h hs
    exact ⟨hnext, fun hbefore _ => hwithin hbefore⟩

/-! ## Runs -/

theorem stands_run (hstands : c.Stands {}) (h : c.Settled) (stimuli : List Stimulus) :
    (c.run stimuli).Stands (c.outageOf stimuli) := by
  induction stimuli using List.reverseRecOn with
  | nil => exact hstands
  | append_singleton stimuli s ih =>
    rw [run_concat, outageOf_concat]
    exact (stands_step ih (settled_run h stimuli) s).1

theorem numbered_run (h : c.Settled) (hfirst : c.Numbered) (stimuli : List Stimulus) :
    (c.run stimuli).Numbered := by
  induction stimuli using List.reverseRecOn with
  | nil => exact hfirst
  | append_singleton stimuli s ih =>
    rw [run_concat]
    exact numbered_step (settled_run h stimuli) ih s

theorem within_run (hstands : c.Stands {}) (h : c.Settled) (stimuli : List Stimulus)
    (hends : ∀ past s, past ++ [s] <+: stimuli → (c.run past).EndsUndropped (c.outageOf past) s) :
    (c.run stimuli).Within (c.outageOf stimuli) := by
  induction stimuli using List.reverseRecOn with
  | nil =>
    refine ⟨Nat.zero_le _, fun _ _ hdropped => ?_⟩
    cases hdropped
  | append_singleton stimuli s ih =>
    have hbefore := ih fun past s' hpast => hends past s' (hpast.trans (List.prefix_append _ _))
    rw [run_concat, outageOf_concat]
    exact (stands_step (stands_run hstands h stimuli) (settled_run h stimuli) s).2 hbefore
      (hends stimuli s (List.prefix_refl _))

/-- **When the budget of an outage is kept**: in a run of a new client no outage has more dials than
its budget, and the session fails once the client is cut off and has used it up, exactly if whenever
the client is cut off and has used it up no line was dropped in that outage. The attempts of the
policy and one more can be counted in 32 bits, and then so can those that the client makes. -/
theorem keepsBudget_iff (policy : ReconnectPolicy) (descriptor : Descriptor)
    (config : SignalingConfig) (offerId : UInt64) (visits : VideoSources.Visits)
    (countable : policy.maxAttempts.toNat < UInt32.size - 1) (stimuli : List Stimulus) :
    let first := new policy (.new descriptor config offerId visits)
    (∀ attempt, (first.run stimuli).phase = .dialing attempt → attempt + 1 < UInt32.size) ∧
      ((∀ past s, past ++ [s] <+: stimuli → (first.run past).KeepsBudget (first.outageOf past) s) ↔
        ∀ past s, past ++ [s] <+: stimuli →
          (first.run past).EndsUndropped (first.outageOf past) s) := by
  intro first
  have hsettled : first.Settled := settled_new policy descriptor config offerId visits
  have hstands : first.Stands {} := rfl
  have hnumbered : (first.run stimuli).Numbered := numbered_run hsettled trivial stimuli
  have hspent (past : List Stimulus) (s : Stimulus) :=
    fun hs hlast => (stands_run hstands hsettled past).spent_iff
      (settled_run hsettled past) (s := s) hs hlast
  refine ⟨fun attempt hphase => ?_, ⟨?_, ?_⟩⟩
  · rw [Numbered, hphase, policy_run] at hnumbered
    exact Nat.lt_of_le_of_lt (Nat.succ_le_succ hnumbered) (Nat.add_lt_of_lt_sub countable)
  · intro hkeeps past s hpast hs hlast
    exact (hspent past s hs hlast).mp ((hkeeps past s hpast).spent hs hlast)
  · intro hends past s hpast
    refine ⟨?_, fun hs hlast => (hspent past s hs hlast).mpr (hends past s hpast hs hlast)⟩
    have hwithin := within_run hstands hsettled (past ++ [s]) fun past' s' hpast' =>
      hends past' s' (hpast'.trans hpast)
    rw [run_concat, outageOf_concat] at hwithin
    have hdials := hwithin.dials
    rwa [policy_step] at hdials

/-- A client that may try once more is joined, loses its line, and is refused: it has kept the budget
of the outage, and its session has failed. -/
theorem keepsBudget_of_refused :
    let descriptor : Descriptor :=
      { meetingId := "m", externalMeetingId := "", credentials := ⟨"a", "", "t"⟩
        audioHostUrl := "", signalingUrl := ⟨"ws://h", by decide⟩ }
    let policy : ReconnectPolicy := { maxAttempts := 1 }
    let first := new policy (.new descriptor {} 0)
    let joinAck := Stimulus.heard (some (.message [0x02, 0x08, 0x00, 0x10, 0x02])) 0
    let past := [.begin, .dialed (.opened (some .connected)), joinAck, .heard none 0, .waited]
    let all := past ++ [.dialed .refused]
    policy.maxAttempts.toNat < UInt32.size - 1 ∧
      (first.run past).phase = .dialing 1 ∧
      (first.outageOf past).joined = true ∧ (first.outageOf past).dials = 1 ∧
      (first.run all).state = .failed ∧
      ∀ before s, before ++ [s] <+: all →
        (first.run before).KeepsBudget (first.outageOf before) s := by
  intro descriptor policy first joinAck past all
  have countable : policy.maxAttempts.toNat < UInt32.size - 1 := by decide
  have hends : ∀ n : Fin 6,
      (first.run (all.take n)).EndsUndropped (first.outageOf (all.take n)) (all.get n) := by
    unfold EndsUndropped
    decide +kernel
  refine ⟨countable, by decide +kernel, by decide +kernel, by decide +kernel, by decide +kernel, ?_⟩
  refine (keepsBudget_iff policy descriptor {} 0 (fun _ => .asKept) countable all).2.mpr ?_
  rintro before s ⟨rest, hall⟩
  have hlength : before.length < 6 := by
    have hsum := congrArg List.length hall
    simp [all, past] at hsum
    omega
  have htake : all.take before.length = before := by simp [← hall]
  have hlast : all.get ⟨before.length, hlength⟩ = s := by simp [← hall]
  have h := hends ⟨before.length, hlength⟩
  rwa [htake, hlast] at h

/-! ## A service that never answers -/

/-- The service takes a line and hangs up, and the wait before the next attempt passes. -/
def lure : List Stimulus := [.dialed (.opened (some .connected)), .heard none 0, .waited]

theorem after_of_up (h : c.Settled) {attempt : Nat} (hphase : c.phase = .dialing attempt)
    (hs : s = .dialed (.opened (some .connected))) :
    (c.step s).state = .authenticating ∧ (c.step s).line.isSome = true ∧
      (o.after c s).joined = o.joined ∧ (o.after c s).dials = o.dials := by
  have hline := (h.connecting (by simp [isConnecting, hphase])).1
  have hturn : (c.step s).state = .authenticating ∧ (c.step s).line.isSome = true ∧
      .dial ∉ c.deedsOf s := by
    have turn := (turn_step h s).2
    generalize c.step s = next at turn ⊢
    generalize c.deedsOf s = deeds at turn ⊢
    subst hs
    cases turn with
    | still undialed => exact absurd rfl (undialed attempt _ hphase)
    | missed _ down | gaveUp _ down => exact absurd rfl down
    | connected _ hstate _ hup _ => exact ⟨hstate, by simp [hup], by simp⟩
    | spoke up | admitted up | lost up | lostForGood up | ended up =>
      rw [hline] at up
      cases up
  obtain ⟨hstate, hup, hdeeds⟩ := hturn
  rw [Outage.after, if_neg (by simp [hstate]), List.count_eq_zero.mpr hdeeds]
  exact ⟨hstate, hup, rfl, rfl⟩

theorem after_of_hangUp (h : c.Settled) (hline : c.line.isSome = true)
    (waits : c.state = .authenticating) (hmax : 1 ≤ c.policy.maxAttempts.toNat)
    (hs : s.hangsUp = true) :
    (c.step s).phase = .waiting 1 ∧ (o.after c s).joined = o.joined ∧
      (o.after c s).dials = o.dials := by
  have hloses : c.losesLine s = true := by
    simp [losesLine, hline, waits, hs, Lifecycle.hasTransport]
  have hgoes := goesOn_of_losesLine h hloses
  cases hdelay : c.policy.delayFor 1 with
  | none =>
    have hlt := (ReconnectPolicy.delayFor_eq_none_iff (Nat.le_refl 1)).mp hdelay
    omega
  | some delay =>
    rw [hgoes.after]
    exact ⟨(hgoes.again delay hdelay).1, rfl, rfl⟩

theorem after_of_waited (h : c.Settled) {attempt : Nat} (hphase : c.phase = .waiting attempt) :
    (c.step .waited).phase = .dialing attempt ∧ (o.after c .waited).joined = o.joined ∧
      (o.after c .waited).dials = o.dials + 1 := by
  have hstep : c.step .waited = c.dial attempt := by simp only [step, hphase]
  have hdeeds : c.deedsOf .waited = [.dial] := by
    apply deedsOf_eq
    rw [hstep]
    simp [dial, act, log]
  have hstate : (c.step .waited).state ≠ .joined := by
    rw [hstep]
    show c.state ≠ .joined
    rcases (h.connecting (by simp [isConnecting, hphase])).2 with hs | hs <;> simp [hs]
  rw [Outage.after, if_neg hstate, hdeeds, hstep]
  exact ⟨rfl, rfl, rfl⟩

theorem lured_once (h : c.Settled) {attempt : Nat} (hphase : c.phase = .dialing attempt)
    (hmax : 1 ≤ c.policy.maxAttempts.toNat) :
    (c.run lure).phase = .dialing 1 ∧ (outageFrom o c lure).joined = o.joined ∧
      (outageFrom o c lure).dials = o.dials + 1 := by
  obtain ⟨hauth, hline, hjoined, hdials⟩ := after_of_up (o := o) h hphase rfl
  have hup := (turn_step h (.dialed (.opened (some .connected)))).2.settled h
  obtain ⟨hwaiting, hjoined', hdials'⟩ := after_of_hangUp (o := o.after c _) hup hline hauth
    (by rwa [policy_step]) (s := .heard none 0) rfl
  have hdown := (turn_step hup (.heard none 0)).2.settled hup
  obtain ⟨hdialing, hjoined'', hdials''⟩ :=
    after_of_waited (o := (o.after c _).after _ _) hdown hwaiting
  refine ⟨hdialing, hjoined''.trans (hjoined'.trans hjoined), ?_⟩
  rw [← hdials, ← hdials']
  exact hdials''

theorem outageFrom_append (o : Outage) (c : Client) (stimuli more : List Stimulus) :
    outageFrom o c (stimuli ++ more) =
      outageFrom (outageFrom o c stimuli) (c.run stimuli) more := by
  induction stimuli generalizing o c with
  | nil => rfl
  | cons s rest ih => exact ih (o.after c s) (c.step s)

theorem lured_times (h : c.Settled) {attempt : Nat} (hphase : c.phase = .dialing attempt)
    (hmax : 1 ≤ c.policy.maxAttempts.toNat) (n : Nat) :
    (outageFrom o c (List.replicate n lure).flatten).joined = o.joined ∧
      (outageFrom o c (List.replicate n lure).flatten).dials = o.dials + n := by
  induction n generalizing c o attempt with
  | zero => exact ⟨rfl, rfl⟩
  | succ n ih =>
    obtain ⟨hdialing, hjoined, hdials⟩ := lured_once (o := o) h hphase hmax
    obtain ⟨hjoined', hdials'⟩ := ih (o := outageFrom o c lure) (settled_run h lure) hdialing
      (by rwa [policy_run])
    rw [List.replicate_succ, List.flatten_cons, outageFrom_append, hjoined', hdials', hdials]
    exact ⟨hjoined, by omega⟩

/-- **A service can keep a client dialing for ever**: if it takes each line and hangs up before it
has answered, there is no limit to the dials of one outage, where there may be any attempts at all.
-/
theorem dials_of_lured (policy : ReconnectPolicy) (descriptor : Descriptor)
    (config : SignalingConfig) (offerId : UInt64) (visits : VideoSources.Visits)
    (hmax : 1 ≤ policy.maxAttempts.toNat) (n : Nat) :
    let first := new policy (.new descriptor config offerId visits)
    let stimuli := .begin :: (List.replicate n lure).flatten
    (first.outageOf stimuli).joined = false ∧ (first.outageOf stimuli).dials = n + 1 := by
  intro first stimuli
  have hsettled : first.Settled := settled_new policy descriptor config offerId visits
  have hbegun : (first.step .begin).phase = .dialing 0 ∧
      ({} : Outage).after first .begin = { dials := 1 } := ⟨rfl, rfl⟩
  obtain ⟨hjoined, hdials⟩ := lured_times (o := ({} : Outage).after first .begin)
    ((turn_step hsettled .begin).2.settled hsettled) hbegun.1 hmax n
  refine ⟨hjoined, hdials.trans ?_⟩
  rw [hbegun.2]
  exact Nat.add_comm 1 n

/-- There is one attempt besides the first dial. Both lines are dropped, and there is a third dial. -/
theorem not_keepsBudget_of_lured :
    let descriptor : Descriptor :=
      { meetingId := "m", externalMeetingId := "", credentials := ⟨"a", "", "t"⟩
        audioHostUrl := "", signalingUrl := ⟨"ws://h", by decide⟩ }
    let first := new { maxAttempts := 1 } (.new descriptor {} 0)
    let up := Stimulus.dialed (.opened (some .connected))
    let hangUp := Stimulus.heard none 0
    let past := [.begin, up, hangUp, .waited, up, hangUp]
    (first.outageOf (past ++ [.waited])).joined = false ∧
      (first.outageOf (past ++ [.waited])).dials = 3 ∧
      first.policy.budget (first.outageOf (past ++ [.waited])) = 2 ∧
      ¬ (first.run past).KeepsBudget (first.outageOf past) .waited := by
  intro descriptor first up hangUp past
  have hdials : (first.outageOf (past ++ [.waited])).dials = 3 := by decide +kernel
  have hbudget : first.policy.budget (first.outageOf (past ++ [.waited])) = 2 := by decide +kernel
  refine ⟨by decide +kernel, hdials, hbudget, fun hkeeps => ?_⟩
  have hlast := hkeeps.dials
  rw [← outageOf_concat, policy_run, hdials, hbudget] at hlast
  exact absurd hlast (by decide)

end Client

end Parley
