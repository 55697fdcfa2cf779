import Mathlib.Computability.RegularExpressions
import Mathlib.Data.List.Induction
import Parley.Link.Loopback
import Parley.Proofs.Signaling.Reaction

/-!
# `Parley/Proofs/Signaling/Conversation.lean` — the order in which things are said

A line carries one conversation. The client asks to join as soon as the line is up, gives signs of
life while it waits, subscribes when the answer is heard, talks as it likes while it is joined, and
says goodbye at most once, as its last word. `grammar` writes this down as a regular expression over
`Saying`.

The grammar says nothing of what is heard, so it is not what a run preserves. A conversation is a
list of exchanges, one for each stimulus, and `Stage` is how far it has come. `Conversation` says
how one stage leads to the next, and everything else is read off it: what was said is a word of the
grammar, the client is admitted at the first answer to its join, and media goes out after that and
before any goodbye.
-/

set_option autoImplicit false

namespace Parley

open Parley.Wire

/-- What passes over a line while a client goes on after one stimulus. -/
structure Exchange where
  heard : Option LinkEvent
  said : List Content

namespace Exchange

/-- What is said, read off the messages. -/
def sayings (x : Exchange) : List Saying := x.said.map Saying.of

theorem sayings_of_said {x : Exchange} (h : x.said = []) : x.sayings = [] := by
  simp [sayings, h]

def HearsJoinAck (x : Exchange) : Prop :=
  ∃ bytes, x.heard = some (.message bytes) ∧ Wire.IsJoinAck bytes

theorem not_hearsJoinAck {x : Exchange} (h : x.heard = none ∨ x.heard = some .connected) :
    ¬ x.HearsJoinAck := by
  rintro ⟨bytes, hheard, -⟩
  rcases h with h | h <;> simp [h] at hheard

end Exchange

/-- How far a conversation has come. -/
inductive Stage where
  | apart
  /-- The line has turned out not to come up. -/
  | refused
  | asking
  | meeting
  | parted
  deriving DecidableEq

/-- What an exchange makes of a conversation. -/
inductive Stage.Moves : Stage → Exchange → Stage → Prop where
  /-- The exchange is not over this line. -/
  | elsewhere {stage : Stage} {x : Exchange} (heard : x.heard = none) (said : x.said = []) :
      Moves stage x stage
  | refuse {x : Exchange} (heard : x.heard ≠ some .connected) (said : x.said = []) :
      Moves .apart x .refused
  | ask {x : Exchange} (heard : x.heard = some .connected) (said : x.sayings = [.join]) :
      Moves .apart x .asking
  | wait {x : Exchange} (heard : ¬ x.HearsJoinAck) (said : ∀ s ∈ x.sayings, s = .pong) :
      Moves .asking x .asking
  | answer {x : Exchange} (heard : x.HearsJoinAck) (said : x.sayings = [.subscribe]) :
      Moves .asking x .meeting
  | talk {x : Exchange} (said : ∀ s ∈ x.sayings, s.isSession = true) : Moves .meeting x .meeting
  | part {x : Exchange} (heard : x.heard = none) (said : x.sayings = [.leave]) :
      Moves .meeting x .parted
  /-- What is heard after a goodbye is not answered. -/
  | linger {x : Exchange} (said : x.said = []) : Moves .parted x .parted

/-- A conversation that has come to a stage. -/
inductive Conversation : List Exchange → Stage → Prop where
  | nil : Conversation [] .apart
  | concat {talk : List Exchange} {stage stage' : Stage} {x : Exchange}
      (before : Conversation talk stage) (move : stage.Moves x stage') :
      Conversation (talk ++ [x]) stage'

def word (talk : List Exchange) : List Saying := talk.flatMap (·.sayings)

def heardIn (talk : List Exchange) : List LinkEvent := talk.filterMap (·.heard)

/-- The line came up: the first thing that is heard over it is that it did. -/
def CameUp (talk : List Exchange) : Prop := (heardIn talk).head? = some .connected

/-- The client is admitted at the first answer to its join: at once it subscribes, which it has not
done before. -/
def Admission (talk : List Exchange) : Prop :=
  ∃ before x after, talk = before ++ x :: after ∧ x.HearsJoinAck ∧ x.sayings = [.subscribe] ∧
    ∀ y ∈ before, ¬ y.HearsJoinAck ∧ .subscribe ∉ y.sayings

/-! ## The grammar -/

/-- The things that a joined client may say. -/
def sessionSaying : RegularExpression Saying :=
  .char .subscribe + .char .ping + .char .pong + .char .audioControl + .char .dataMessage +
    .char .media

/-- What is said over one line: a join, signs of life, and if the join is answered a subscription,
anything of the session, and perhaps a goodbye. -/
def grammar : RegularExpression Saying :=
  .char .join * (RegularExpression.char .pong).star *
    (1 + .char .subscribe * sessionSaying.star * (1 + .char .leave))

section Grammar

variable {P Q : RegularExpression Saying} {word word' : List Saying}

theorem mem_char (s : Saying) : [s] ∈ (RegularExpression.char s).matches' := by
  rw [RegularExpression.matches'_char]
  rfl

theorem mem_mul (h : word ∈ P.matches') (h' : word' ∈ Q.matches') :
    word ++ word' ∈ (P * Q).matches' := by
  rw [RegularExpression.matches'_mul]
  exact Language.append_mem_mul h h'

theorem mem_maybe (h : word = [] ∨ word ∈ P.matches') : word ∈ (1 + P).matches' := by
  rw [RegularExpression.matches'_add, Language.mem_add]
  exact h

theorem mem_star (h : ∀ s ∈ word, [s] ∈ P.matches') : word ∈ P.star.matches' := by
  rw [RegularExpression.matches'_star, Language.mem_kstar]
  refine ⟨word.map fun s => [s], ?_, ?_⟩
  · induction word with
    | nil => rfl
    | cons s rest ih => simp [← ih fun t ht => h t (List.mem_cons_of_mem s ht)]
  · intro y hy
    obtain ⟨s, hs, rfl⟩ := List.mem_map.mp hy
    exact h s hs

theorem mem_sessionSaying {s : Saying} (h : s.isSession = true) : [s] ∈ sessionSaying.matches' := by
  rw [← RegularExpression.rmatch_iff_matches']
  revert h
  cases s <;> decide

/-- Every word of the grammar begins like this. -/
theorem mem_grammar {pongs rest : List Saying} (hpongs : ∀ s ∈ pongs, s = .pong)
    (hrest : rest = [] ∨ rest ∈
      (.char .subscribe * sessionSaying.star * (1 + .char .leave) :
        RegularExpression Saying).matches') :
    .join :: pongs ++ rest ∈ grammar.matches' := by
  have hstar : pongs ∈ (RegularExpression.char Saying.pong).star.matches' :=
    mem_star fun s hs => hpongs s hs ▸ mem_char s
  exact mem_mul (mem_mul (mem_char .join) hstar) (mem_maybe hrest)

theorem mem_grammar_of_meeting {pongs session goodbye : List Saying}
    (hpongs : ∀ s ∈ pongs, s = .pong) (hsession : ∀ s ∈ session, s.isSession = true)
    (hgoodbye : goodbye = [] ∨ goodbye = [.leave]) :
    .join :: pongs ++ (.subscribe :: session ++ goodbye) ∈ grammar.matches' := by
  refine mem_grammar hpongs (.inr (mem_mul (mem_mul (mem_char .subscribe) ?_) (mem_maybe ?_)))
  · exact mem_star fun s hs => mem_sessionSaying (hsession s hs)
  · rcases hgoodbye with rfl | rfl
    · exact .inl rfl
    · exact .inr (mem_char .leave)

end Grammar

/-! ## What a conversation is like at each stage -/

namespace Stage

/-- What has been said when a conversation has come to a stage. -/
def Word : Stage → List Saying → Prop
  | .apart, w | .refused, w => w = []
  | .asking, w => ∃ pongs : List Saying, (∀ s ∈ pongs, s = .pong) ∧ w = .join :: pongs
  | .meeting, w => ∃ pongs session : List Saying, (∀ s ∈ pongs, s = .pong) ∧
      (∀ s ∈ session, s.isSession = true) ∧ w = .join :: pongs ++ .subscribe :: session
  | .parted, w => ∃ pongs session : List Saying, (∀ s ∈ pongs, s = .pong) ∧
      (∀ s ∈ session, s.isSession = true) ∧
      w = .join :: pongs ++ (.subscribe :: session ++ [.leave])

/-- What has been heard by then, as far as it matters. -/
def Heard : Stage → List LinkEvent → Prop
  | .apart, events => events = []
  | .refused, events => events.head? ≠ some .connected
  | .asking, events | .meeting, events | .parted, events => events.head? = some .connected

variable {stage stage' : Stage} {x : Exchange}

theorem Moves.word {w : List Saying} (h : stage.Moves x stage') (before : stage.Word w) :
    stage'.Word (w ++ x.sayings) := by
  cases h with
  | elsewhere _ hsaid | linger hsaid =>
    rw [Exchange.sayings_of_said hsaid, List.append_nil]
    exact before
  | refuse _ hsaid =>
    rw [Exchange.sayings_of_said hsaid, List.append_nil]
    exact before
  | ask _ hsaid =>
    obtain rfl : w = [] := before
    exact ⟨[], by simp, by simp [hsaid]⟩
  | wait _ hsaid =>
    obtain ⟨pongs, hpongs, rfl⟩ := before
    refine ⟨pongs ++ x.sayings, ?_, by simp⟩
    exact fun s hs => (List.mem_append.mp hs).elim (hpongs s) (hsaid s)
  | answer _ hsaid =>
    obtain ⟨pongs, hpongs, rfl⟩ := before
    exact ⟨pongs, [], hpongs, by simp, by simp [hsaid]⟩
  | talk hsaid =>
    obtain ⟨pongs, session, hpongs, hsession, rfl⟩ := before
    refine ⟨pongs, session ++ x.sayings, hpongs, ?_, by simp⟩
    exact fun s hs => (List.mem_append.mp hs).elim (hsession s) (hsaid s)
  | part _ hsaid =>
    obtain ⟨pongs, session, hpongs, hsession, rfl⟩ := before
    exact ⟨pongs, session, hpongs, hsession, by simp [hsaid]⟩

theorem Moves.heard {events : List LinkEvent} (h : stage.Moves x stage')
    (before : stage.Heard events) : stage'.Heard (events ++ x.heard.toList) := by
  -- once something is heard, what is heard first stays what it is
  have stays : events.head? = some .connected →
      (events ++ x.heard.toList).head? = some .connected := by
    intro hhead
    rw [List.head?_append, hhead]
    rfl
  cases h with
  | elsewhere hheard _ => simpa [hheard] using before
  | refuse hheard _ =>
    obtain rfl : events = [] := before
    show (Option.toList x.heard).head? ≠ _
    rwa [Option.head?_toList]
  | ask hheard _ =>
    obtain rfl : events = [] := before
    show ([] ++ Option.toList x.heard).head? = _
    simp [hheard]
  | wait | answer | talk | part | linger => exact stays before

/-- A conversation that has been going on at a stage is a word of the grammar. -/
theorem Word.mem_grammar {w : List Saying} (h : stage.Word w)
    (up : stage ≠ .apart ∧ stage ≠ .refused) : w ∈ grammar.matches' := by
  cases stage with
  | apart => exact absurd rfl up.1
  | refused => exact absurd rfl up.2
  | asking =>
    obtain ⟨pongs, hpongs, rfl⟩ := h
    simpa using Parley.mem_grammar hpongs (.inl rfl)
  | meeting =>
    obtain ⟨pongs, session, hpongs, hsession, rfl⟩ := h
    simpa using mem_grammar_of_meeting hpongs hsession (.inl rfl)
  | parted =>
    obtain ⟨pongs, session, hpongs, hsession, rfl⟩ := h
    exact mem_grammar_of_meeting hpongs hsession (.inr rfl)

/-- Nobody says goodbye before it is time to part. -/
theorem Word.leave_notMem {w : List Saying} (h : stage.Word w) (hstage : stage = .meeting) :
    .leave ∉ w := by
  subst hstage
  obtain ⟨pongs, session, hpongs, hsession, rfl⟩ := h
  intro hleave
  rcases List.mem_append.mp hleave with hleave | hleave
  · rcases List.mem_cons.mp hleave with hleave | hleave
    · exact absurd hleave (by decide)
    · exact absurd (hpongs _ hleave) (by decide)
  · rcases List.mem_cons.mp hleave with hleave | hleave
    · exact absurd hleave (by decide)
    · exact absurd (hsession _ hleave) (by decide)

end Stage

namespace Conversation

variable {talk : List Exchange} {stage : Stage}

theorem word (h : Conversation talk stage) : stage.Word (word talk) := by
  induction h with
  | nil => exact rfl
  | @concat talk _ _ x _ move ih =>
    have hword : Parley.word (talk ++ [x]) = Parley.word talk ++ x.sayings := by
      simp [Parley.word]
    rw [hword]
    exact move.word ih

theorem heard (h : Conversation talk stage) : stage.Heard (heardIn talk) := by
  induction h with
  | nil => exact rfl
  | @concat talk _ _ x _ move ih =>
    have hheard : heardIn (talk ++ [x]) = heardIn talk ++ x.heard.toList := by
      cases hx : x.heard <;> simp [heardIn, hx]
    rw [hheard]
    exact move.heard ih

theorem cameUp_iff (h : Conversation talk stage) :
    CameUp talk ↔ stage ≠ .apart ∧ stage ≠ .refused := by
  have hheard := h.heard
  unfold CameUp
  cases stage <;> simp_all [Stage.Heard]

theorem word_of_not_cameUp (h : Conversation talk stage) (hdown : ¬ CameUp talk) :
    Parley.word talk = [] := by
  have hword := h.word
  rw [h.cameUp_iff] at hdown
  cases stage <;> simp_all [Stage.Word]

theorem before {x : Exchange} (h : Conversation (talk ++ [x]) stage) :
    ∃ stage', Conversation talk stage' ∧ stage'.Moves x stage := by
  generalize htalk : talk ++ [x] = whole at h
  cases h with
  | nil => simp at htalk
  | concat before move =>
    obtain ⟨rfl, hx⟩ := List.append_inj' htalk rfl
    obtain rfl : x = _ := by simpa using hx
    exact ⟨_, before, move⟩

theorem of_prefix (h : Conversation talk stage) {past : List Exchange} (hpast : past <+: talk) :
    ∃ stage', Conversation past stage' := by
  obtain ⟨rest, rfl⟩ := hpast
  induction rest using List.reverseRecOn generalizing stage with
  | nil => exact ⟨stage, by simpa using h⟩
  | append_singleton rest x ih =>
    rw [← List.append_assoc] at h
    obtain ⟨_, hbefore, _⟩ := h.before
    exact ih hbefore

/-- Until the client is admitted it has neither heard an answer to its join nor subscribed. -/
theorem unanswered (h : Conversation talk stage) (hstage : stage = .apart ∨ stage = .asking) :
    ∀ x ∈ talk, ¬ x.HearsJoinAck ∧ .subscribe ∉ x.sayings := by
  induction h with
  | nil => intro x hx; exact absurd hx (by simp)
  | @concat talk stage stage' x before move ih =>
    have goesOn (hstage : stage = .apart ∨ stage = .asking)
        (hx : ¬ x.HearsJoinAck ∧ .subscribe ∉ x.sayings) :
        ∀ y ∈ talk ++ [x], ¬ y.HearsJoinAck ∧ .subscribe ∉ y.sayings := by
      intro y hy
      rcases List.mem_append.mp hy with hy | hy
      · exact ih hstage y hy
      · rw [List.mem_singleton.mp hy]
        exact hx
    cases move with
    | elsewhere hheard hsaid =>
      refine goesOn hstage ⟨Exchange.not_hearsJoinAck (.inl hheard), ?_⟩
      simp [Exchange.sayings_of_said hsaid]
    | ask hheard hsaid =>
      exact goesOn (.inl rfl) ⟨Exchange.not_hearsJoinAck (.inr hheard), by simp [hsaid]⟩
    | wait hheard hsaid =>
      refine goesOn (.inr rfl) ⟨hheard, fun hsub => ?_⟩
      exact absurd (hsaid _ hsub) (by decide)
    | refuse | answer | talk | part | linger => simp at hstage

theorem admission (h : Conversation talk stage) (hstage : stage = .meeting ∨ stage = .parted) :
    Admission talk := by
  -- the stages never go back, so the admission of an earlier moment is the admission now
  induction h with
  | nil => simp at hstage
  | @concat talk stage stage' x before move ih =>
    have goesOn (hstage : stage = .meeting ∨ stage = .parted) : Admission (talk ++ [x]) := by
      obtain ⟨earlier, y, later, rfl, hy⟩ := ih hstage
      exact ⟨earlier, y, later ++ [x], by simp, hy⟩
    cases move with
    | answer hheard hsaid =>
      exact ⟨talk, x, [], rfl, hheard, hsaid, before.unanswered (.inr rfl)⟩
    | elsewhere => exact goesOn hstage
    | talk | part => exact goesOn (.inl rfl)
    | linger => exact goesOn (.inr rfl)
    | refuse | ask | wait => simp at hstage

/-- The first subscription and the first answer to a join come together. -/
theorem admission_of (h : Conversation talk stage)
    (hx : ∃ x ∈ talk, .subscribe ∈ x.sayings ∨ CameUp talk ∧ x.HearsJoinAck) :
    Admission talk := by
  obtain ⟨x, hmem, hx⟩ := hx
  cases hstage : stage with
  | meeting => exact h.admission (.inl hstage)
  | parted => exact h.admission (.inr hstage)
  -- before the admission neither of the two has come
  | apart | asking =>
    obtain ⟨hdeaf, hmute⟩ := h.unanswered (by simp [hstage]) x hmem
    exact absurd hx (by simp [hdeaf, hmute])
  | refused =>
    have hup : ¬ CameUp talk := by simp [h.cameUp_iff, hstage]
    have hmute : .subscribe ∉ x.sayings := by
      intro hsub
      have hmem : .subscribe ∈ Parley.word talk := List.mem_flatMap.mpr ⟨x, hmem, hsub⟩
      rw [h.word_of_not_cameUp hup] at hmem
      exact absurd hmem (by simp)
    exact absurd hx (by simp [hup, hmute])

/-- Media goes out after the answer to the join and before any goodbye. -/
theorem around_media {x : Exchange} (h : Conversation (talk ++ [x]) stage)
    (hmedia : .media ∈ x.sayings) :
    (∃ y ∈ talk, y.HearsJoinAck) ∧ ∀ y ∈ talk ++ [x], .leave ∉ y.sayings := by
  obtain ⟨stage', hbefore, move⟩ := h.before
  cases move with
  | talk hsaid =>
    obtain ⟨earlier, y, later, rfl, hack, -⟩ := hbefore.admission (.inl rfl)
    refine ⟨⟨y, by simp, hack⟩, fun z hz hleave => ?_⟩
    exact h.word.leave_notMem rfl (List.mem_flatMap.mpr ⟨z, hz, hleave⟩)
  | elsewhere _ hsaid | refuse _ hsaid | linger hsaid =>
    simp [Exchange.sayings_of_said hsaid] at hmedia
  | ask _ hsaid | answer _ hsaid | part _ hsaid => simp [hsaid] at hmedia
  | wait _ hsaid => exact absurd (hsaid _ hmedia) (by decide)

end Conversation

end Parley
