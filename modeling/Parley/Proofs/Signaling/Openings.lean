import Parley.Proofs.Signaling.Course

/-!
# `Parley/Proofs/Signaling/Openings.lean` — a session starts once each time the client is let in

A client that is let in waits for the first index. That index starts the session, with the relay
access that was granted with the answer to the join, unless the access has run out by then; and only
later indexes bring news of the sources. Each time a connection is lost all this begins anew.

A machine remembers no more of it than whether an index was taken in on this connection. That this
is enough comes from two facts about runs: while the client waits to be let in the mark is not set,
as only the loss of a connection leads back there (`Sits.fresh`); and once it is let in, the mark
stays away exactly until an index is taken in (`Sits.stay`, `Sits.untold`).
-/

set_option autoImplicit false

namespace Parley

open Parley.Wire

/-- An action that begins a stage of the session: the client is let in, the session starts, or a new
connection is wanted. -/
def Action.isStage : Action → Bool
  | .emit (.joined _ _) | .emit (.started _ _) | .reconnect => true
  | _ => false

/-- News of how the sources have changed. -/
def Action.isDifference : Action → Bool
  | .emit (.videoSourcesAvailable _) | .emit (.videoSourcesUnavailable _) => true
  | _ => false

theorem Action.isStage_of_unmarked {a : Action} (h : a.isMark = false) : a.isStage = false := by
  cases a with
  | emit event =>
    cases event with
    | joined | started => exact absurd h (by simp [Action.isMark, Action.isSourceNews])
    | _ => rfl
  | reconnect => exact absurd h (by simp [Action.isMark])
  | _ => rfl

theorem Action.isSourceNews_of_isDifference {a : Action} (h : a.isDifference = true) :
    a.isSourceNews = true := by
  cases a with
  | emit event =>
    cases event with
    | videoSourcesAvailable | videoSourcesUnavailable => rfl
    | _ => exact absurd h Bool.false_ne_true
  | _ => exact absurd h Bool.false_ne_true

namespace Machine

/-! ## What is granted -/

/-- The answer to a join grants this access: it has all the parts of one and names a relay, and the
time that it grants begins when it comes in. -/
def Grants (ack : Option JoinAckFrame) (now : Instant) (access : TurnAccess) : Prop :=
  ∃ given, ack.bind (·.turnCredentials) = some given ∧
    given.username = some access.username ∧ given.password = some access.password ∧
    given.ttl = some access.ttl ∧ given.uris = access.uris ∧ access.uris ≠ [] ∧
    access.expiresAt = now + access.ttl.toNat * 1000000000

theorem turnAccess?_eq_some_iff {given : TurnCredentials} {now : Instant} {access : TurnAccess} :
    turnAccess? given now = some access ↔
      given.username = some access.username ∧ given.password = some access.password ∧
      given.ttl = some access.ttl ∧ given.uris = access.uris ∧ access.uris ≠ [] ∧
      access.expiresAt = now + access.ttl.toNat * 1000000000 := by
  obtain ⟨username, password, ttl, uris⟩ := given
  obtain ⟨_, _, _, _, _⟩ := access
  cases username <;> cases password <;> cases ttl <;> simp [turnAccess?]
  constructor
  · rintro ⟨hne, rfl, rfl, rfl, rfl, rfl⟩
    exact ⟨rfl, rfl, rfl, rfl, hne, rfl⟩
  · rintro ⟨rfl, rfl, rfl, rfl, hne, rfl⟩
    exact ⟨hne, rfl, rfl, rfl, rfl, rfl⟩

theorem grantedBy_eq_some_iff {ack : Option JoinAckFrame} {now : Instant} {access : TurnAccess} :
    grantedBy ack now = some access ↔ Grants ack now access := by
  simp only [grantedBy, Grants, Option.bind_eq_some_iff, turnAccess?_eq_some_iff]

/-! ## Moments of a stay -/

/-- At this moment an answer lets the client in, with the access that it grants or with none. -/
def Moment.LetsIn (t : Moment) (turn : Option TurnAccess) : Prop :=
  ∃ ack now codec, t.machine.state = .authenticating ∧ t.input.joinAck? = some (ack, now) ∧
    (∀ access, turn = some access ↔ Grants ack now access) ∧
    t.actions = [.emit (.joined codec turn), .send t.machine.subscribeFrame]

/-- A moment at which the client goes on waiting for the first index. -/
structure Moment.Waits (t : Moment) : Prop where
  untaken : t.taken? = none
  unstaged : ∀ a ∈ t.actions, a.isStage = false

variable {course : List Moment} {t : Moment}

theorem untaken_of_next (h : t.next.indexed = false) : t.taken? = none := by
  cases htaken : t.taken? with
  | none => rfl
  | some brought =>
    obtain ⟨hnext, -⟩ := Moment.step_of_taken htaken
    rw [hnext] at h
    exact absurd h (by simp)

/-! ## What the mark of the first index stands for -/

/-- What a machine knows of its past by the mark of the first index alone. -/
structure Sits (course : List Moment) (m : Machine) : Prop where
  fresh : m.state.isTerminal = false → m.state ≠ .joined → m.indexed = false
  stay : m.state = .joined → m.indexed = false →
    ∃ earlier opening between, course = earlier ++ opening :: between ∧
      opening.LetsIn m.turn ∧ ∀ s ∈ between, s.Waits
  untold : ∀ earlier opening between, course = earlier ++ opening :: between →
    ∀ codec turn, .emit (.joined codec turn) ∈ opening.actions →
    (∀ s ∈ between, s.taken? = none) → m.indexed = false

theorem sits_new (descriptor : Descriptor) (config : SignalingConfig) (offerId : UInt64)
    (visits : VideoSources.Visits) :
    Sits [] (new descriptor config offerId visits) :=
  ⟨fun _ _ => rfl, nofun, fun earlier opening between h => absurd h (by simp)⟩

/-- Only an index that is taken in sets the mark. -/
theorem indexed_next (h : t.machine.indexed = false) (untaken : t.taken? = none) :
    t.next.indexed = false := by
  have hbearing := bearing_next t
  generalize t.next = next at hbearing ⊢
  generalize t.actions = actions at hbearing
  cases hbearing with
  | aside standing => exact (congrArg Standing.indexed standing).trans h
  | indexed index now brings admits =>
    have htaken := Moment.taken?_eq_some_iff.mpr ⟨brings, admits⟩
    exact absurd (untaken.symm.trans htaken) (by simp)
  | lost => rfl
  | _ => exact h

theorem Sits.fresh_next (h : Sits course t.machine) (live : t.next.state.isTerminal = false)
    (notJoined : t.next.state ≠ .joined) : t.next.indexed = false := by
  have hlive := Moment.isTerminal_of_next live
  have hbearing := bearing_next t
  generalize t.next = next at hbearing live notJoined ⊢
  generalize t.actions = actions at hbearing
  cases hbearing with
  | aside standing joined =>
    exact (congrArg Standing.indexed standing).trans
      (h.fresh hlive (notJoined ∘ (joined live).mpr))
  | letIn => exact absurd rfl notJoined
  | indexed index now brings admits => exact absurd (joined_of_isJoined admits.1) notJoined
  | ponged => exact h.fresh hlive notJoined
  | pinged state => exact absurd state notJoined
  | lost => rfl

/-- While the client waits for the first index, one more moment of waiting is added to its stay. -/
theorem Sits.stay_longer (h : Sits course t.machine) (joined : t.machine.state = .joined)
    (unindexed : t.next.indexed = false) (unchanged : t.next.indexed = t.machine.indexed)
    (turn : t.next.turn = t.machine.turn) (unstaged : ∀ a ∈ t.actions, a.isStage = false) :
    ∃ earlier opening between, course ++ [t] = earlier ++ opening :: between ∧
      opening.LetsIn t.next.turn ∧ ∀ s ∈ between, s.Waits := by
  obtain ⟨earlier, opening, between, rfl, hopening, hwaits⟩ :=
    h.stay joined (unchanged.symm.trans unindexed)
  refine ⟨earlier, opening, between ++ [t], by simp, by rw [turn]; exact hopening, ?_⟩
  intro s hs
  rcases List.mem_append.mp hs with hs | hs
  · exact hwaits s hs
  · obtain rfl := List.mem_singleton.mp hs
    exact ⟨untaken_of_next unindexed, unstaged⟩

theorem Sits.stay_next (h : Sits course t.machine) (joined : t.next.state = .joined)
    (unindexed : t.next.indexed = false) :
    ∃ earlier opening between, course ++ [t] = earlier ++ opening :: between ∧
      opening.LetsIn t.next.turn ∧ ∀ s ∈ between, s.Waits := by
  have hbearing := bearing_next t
  generalize hnext : t.next = next at hbearing
  generalize hactions : t.actions = actions at hbearing
  rw [← hnext]
  cases hbearing with
  | aside standing same unmarked =>
    rw [← hnext] at standing same
    rw [← hactions] at unmarked
    have hjoined : t.machine.state = .joined := (same (by rw [joined]; rfl)).mp joined
    exact h.stay_longer hjoined unindexed (congrArg Standing.indexed standing)
      (congrArg Standing.turn standing) fun a ha => Action.isStage_of_unmarked (unmarked a ha)
  | letIn ack now state answer =>
    refine ⟨course, t, [], rfl, ?_, by simp⟩
    rw [hnext]
    exact ⟨ack, now, _, state, answer, fun access => grantedBy_eq_some_iff, hactions⟩
  | indexed => exact absurd (hnext ▸ unindexed) (by simp)
  | ponged =>
    have hjoined : t.machine.state = .joined := by rwa [hnext] at joined
    exact h.stay_longer hjoined unindexed (by rw [hnext]) (by rw [hnext]) (by simp [hactions])
  | pinged state =>
    refine h.stay_longer state unindexed (by rw [hnext]) (by rw [hnext]) ?_
    simp [hactions, Action.isStage]
  | lost => exact absurd (hnext ▸ joined) (by simp)

theorem eq_append_cons_concat {α : Type} {all before after : List α} {a last : α}
    (h : all ++ [last] = before ++ a :: after) :
    (all = before ∧ a = last ∧ after = []) ∨
      ∃ mid, after = mid ++ [last] ∧ all = before ++ a :: mid := by
  rcases List.eq_nil_or_concat' after with rfl | ⟨mid, b, rfl⟩
  · obtain ⟨rfl, rfl⟩ := List.append_singleton_inj.mp h
    exact .inl ⟨rfl, rfl, rfl⟩
  · rw [← List.cons_append, ← List.append_assoc] at h
    obtain ⟨rfl, rfl⟩ := List.append_singleton_inj.mp h
    exact .inr ⟨mid, rfl, rfl⟩

/-- A client is let in by an answer to its join alone. -/
theorem letsIn_of_mem {codec : Codec} {turn : Option TurnAccess}
    (h : .emit (.joined codec turn) ∈ t.actions) :
    t.LetsIn turn ∧ t.next.indexed = t.machine.indexed := by
  have hbearing := bearing_next t
  generalize t.next = next at hbearing ⊢
  generalize hactions : t.actions = actions at hbearing h
  cases hbearing with
  | aside _ _ unmarked => exact absurd (unmarked _ h) (by simp [Action.isMark])
  | letIn ack now state answer =>
    obtain ⟨rfl, rfl⟩ : codec = t.machine.codec ∧ turn = grantedBy ack now := by simpa using h
    exact ⟨⟨ack, now, _, state, answer, fun access => grantedBy_eq_some_iff, hactions⟩, rfl⟩
  | indexed index now =>
    exact absurd (isSourceNews_indexNews t.machine index now _ h) (by simp [Action.isSourceNews])
  | _ => exact absurd h (by simp)

theorem Sits.step (h : Sits course t.machine) : Sits (course ++ [t]) t.next := by
  constructor
  case fresh => exact h.fresh_next
  case stay => exact h.stay_next
  case untold =>
    intro earlier opening between hsplit codec turn hopening huntaken
    rcases eq_append_cons_concat hsplit with ⟨rfl, rfl, rfl⟩ | ⟨mid, rfl, rfl⟩
    · obtain ⟨⟨_, _, _, state, _⟩, hindexed⟩ := letsIn_of_mem hopening
      rw [hindexed]
      exact h.fresh (by rw [state]; rfl) (by rw [state]; decide)
    · apply indexed_next
      · exact h.untold earlier opening mid rfl codec turn hopening fun s hs =>
          huntaken s (List.mem_append_left _ hs)
      · exact huntaken t (by simp)

theorem sits_run (descriptor : Descriptor) (config : SignalingConfig) (offerId : UInt64)
    (visits : VideoSources.Visits) {inputs : List Input} {before after : List Moment} {t : Moment}
    (h : (new descriptor config offerId visits).moments inputs = before ++ t :: after) :
    Sits before t.machine :=
  invariant_at (sits_new descriptor config offerId visits) (fun _ _ => Sits.step) h

/-! ## What is told at a moment -/

theorem started_mem_indexNews {m : Machine} {index : IndexFrame} {now : Instant}
    {turn : Option TurnAccess} {sources : List VideoSource}
    (h : .emit (.started turn sources) ∈ m.indexNews index now) :
    m.indexed = false ∧ turn = m.turn ∧ m.turn.any (·.isExpired now) = false ∧
      m.indexNews index now = [.emit (.started turn sources)] := by
  unfold indexNews at h ⊢
  dsimp only at h ⊢
  split at h
  · rcases List.mem_append.mp h with h | h <;> split at h <;> simp at h
  · rename_i hindexed
    split at h
    · exact absurd h (by simp)
    · rename_i hexpired
      obtain ⟨rfl, rfl⟩ : turn = m.turn ∧ sources = (m.sources.update index.sources).2 := by
        simpa using h
      simp [hindexed, hexpired]

theorem isDifference_of_unindexed (h : t.machine.indexed = false) :
    ∀ a ∈ t.actions, a.isDifference = false := by
  intro a ha
  by_contra hdifference
  have hnews : a.isSourceNews = true :=
    Action.isSourceNews_of_isDifference (by simpa using hdifference)
  obtain ⟨index, now, -, hmem⟩ := Moment.taken_of_news ha hnews
  unfold indexNews at hmem
  simp only [h, Bool.false_eq_true, if_false] at hmem
  split at hmem
  · exact absurd hmem (by simp)
  · obtain rfl := List.mem_singleton.mp hmem
    exact hdifference rfl

/-- **A session starts once each time the client is let in.** In every run of a new machine, a start
of the session is brought by an index that is taken in, and is all that is told then. Before it the
client was let in by an answer to its join: the start tells the access that was granted with that
answer, or none if none was, and the access has not run out at the time of the index. In between no
index was taken in, nobody was let in, no session started and no new connection was asked for. And
from the moment at which the client is let in, no change of sources is told up to the first index
that is taken in, that index included. -/
theorem starts_once_let_in (descriptor : Descriptor) (config : SignalingConfig)
    (offerId : UInt64) (visits : VideoSources.Visits) (inputs : List Input) :
    let course := (new descriptor config offerId visits).moments inputs
    (∀ before t after turn sources, course = before ++ t :: after →
      .emit (.started turn sources) ∈ t.actions →
      t.actions = [.emit (.started turn sources)] ∧
      (∃ index now, t.taken? = some (index, now) ∧
        ∀ access, turn = some access → now ≤ access.expiresAt) ∧
      ∃ earlier opening between, before = earlier ++ opening :: between ∧
        opening.LetsIn turn ∧ ∀ s ∈ between, s.Waits) ∧
    (∀ before opening between t after codec turn,
      course = before ++ opening :: (between ++ t :: after) →
      .emit (.joined codec turn) ∈ opening.actions → (∀ s ∈ between, s.taken? = none) →
      ∀ a ∈ opening.actions ++ t.actions, a.isDifference = false) := by
  intro course
  constructor
  · intro before t after turn sources hcourse hstarted
    have h : Sits before t.machine := sits_run descriptor config offerId visits hcourse
    obtain ⟨index, now, htaken, hnews⟩ := Moment.taken_of_news hstarted rfl
    obtain ⟨hindexed, rfl, hexpired, heq⟩ := started_mem_indexNews hnews
    refine ⟨(Moment.step_of_taken htaken).2.trans heq, ⟨index, now, htaken, ?_⟩, ?_⟩
    · intro access haccess
      rw [haccess] at hexpired
      simpa [TurnAccess.isExpired] using hexpired
    · have hadmits := (Moment.taken?_eq_some_iff.mp htaken).2
      exact h.stay (joined_of_isJoined hadmits.1) hindexed
  · intro before opening between t after codec turn hcourse hopening huntaken a ha
    rcases List.mem_append.mp ha with ha | ha
    · obtain ⟨⟨_, _, _, _, _, _, hactions⟩, -⟩ := letsIn_of_mem hopening
      rw [hactions] at ha
      rcases List.mem_pair.mp ha with rfl | rfl <;> rfl
    · have hsplit : course = (before ++ opening :: between) ++ t :: after := by simp [hcourse]
      have h : Sits _ t.machine := sits_run descriptor config offerId visits hsplit
      have hindexed := h.untold before opening between rfl codec turn hopening huntaken
      exact isDifference_of_unindexed hindexed a ha

/-- A client that comes back after a loss is let in again, with an access for a minute from second 5
on, and starts again at second 6. -/
theorem starts_once_let_in_of_return :
    let descriptor : Descriptor :=
      { meetingId := "m", externalMeetingId := "", credentials := ⟨"a", "", "t"⟩
        audioHostUrl := "", signalingUrl := ⟨"ws://h", by decide⟩ }
    let m := new descriptor {} 0
    let granting (now : Instant) : Input :=
      .message [0x02, 0x08, 0x00, 0x10, 0x02, 0x22, 0x0d, 0x0a, 0x0b, 0x0a, 0x01, 0x75, 0x12, 0x01,
        0x70, 0x18, 0x3c, 0x22, 0x01, 0x72] now
    let emptyIndex (now : Instant) : Input :=
      .message [0x02, 0x08, 0x00, 0x10, 0x05, 0x3a, 0x00] now
    let access : TurnAccess := ⟨"u", "p", 60, ["r"], 65000000000⟩
    let past : List Input := [.start, .transportUp, granting 0, emptyIndex 1, .transportLost,
      .transportUp]
    let opening : Moment := ⟨(m.run past).1, granting 5000000000⟩
    let t : Moment := ⟨(m.run (past ++ [opening.input])).1, emptyIndex 6000000000⟩
    m.moments (past ++ [opening.input] ++ [t.input]) = m.moments past ++ opening :: ([] ++ [t]) ∧
      .emit (.joined .pcmu (some access)) ∈ opening.actions ∧
      .emit (.started (some access) []) ∈ t.actions ∧
      (∃ earlier last between, m.moments past ++ [opening] = earlier ++ last :: between ∧
        last.LetsIn (some access) ∧ ∀ s ∈ between, s.Waits) ∧
      ∀ a ∈ opening.actions ++ t.actions, a.isDifference = false := by
  intro descriptor m granting emptyIndex access past opening t
  have hcourse : m.moments (past ++ [opening.input] ++ [t.input]) =
      m.moments past ++ opening :: ([] ++ [t]) := by
    rw [moments_concat, moments_concat, List.append_assoc]
    rfl
  have hsplit : m.moments (past ++ [opening.input] ++ [t.input]) =
      (m.moments past ++ [opening]) ++ t :: [] := by
    rw [hcourse]
    simp
  have hjoined : .emit (.joined .pcmu (some access)) ∈ opening.actions := by decide +kernel
  have hstarted : .emit (.started (some access) []) ∈ t.actions := by decide +kernel
  obtain ⟨starts, tells⟩ :=
    starts_once_let_in descriptor {} 0 (fun _ => .asKept) (past ++ [opening.input] ++ [t.input])
  obtain ⟨-, -, hopening⟩ := starts _ t [] (some access) [] hsplit hstarted
  exact ⟨hcourse, hjoined, hstarted, hopening,
    tells _ opening [] t [] .pcmu (some access) hcourse hjoined (by simp)⟩

end Machine

end Parley
