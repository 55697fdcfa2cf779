import Mathlib.Data.List.Basic
import Mathlib.Data.List.Induction
import Parley.Proofs.Signaling.Bearing

/-!
# `Parley/Proofs/Signaling/Course.lean` — the moments of a run

What is said of a run is said of its **moments**, one for each input: the machine before it and the
input itself. An invariant may then speak of all that has happened so far, and is carried over a run
by `moments_induction`; what one moment can do is listed by `Bearing` (`bearing_next`).
-/

set_option autoImplicit false

namespace Parley

open Parley.Wire

namespace Machine

/-! ## Moments -/

/-- One moment of a run: a machine and the input that it takes. -/
structure Moment where
  machine : Machine
  input : Input

namespace Moment

def next (t : Moment) : Machine := (t.machine.step t.input).1

def actions (t : Moment) : List Action := (t.machine.step t.input).2

end Moment

/-- The moments of a run, the earliest first. -/
def moments (m : Machine) : List Input → List Moment
  | [] => []
  | input :: rest => ⟨m, input⟩ :: (m.step input).1.moments rest

variable {m : Machine} {inputs : List Input}

theorem moments_concat (m : Machine) (past : List Input) (input : Input) :
    m.moments (past ++ [input]) = m.moments past ++ [⟨(m.run past).1, input⟩] := by
  induction past generalizing m with
  | nil => rfl
  | cons earlier past ih => simp only [List.cons_append, moments, run, ih]

/-- An invariant of the past of a run and of the machine that it has led to. -/
theorem moments_induction {P : List Moment → Machine → Prop} (start : P [] m)
    (step : ∀ before t, P before t.machine → P (before ++ [t]) t.next) (inputs : List Input) :
    P (m.moments inputs) (m.run inputs).1 := by
  induction inputs using List.reverseRecOn with
  | nil => exact start
  | append_singleton inputs input ih =>
    rw [moments_concat, run_concat]
    exact step _ _ ih

/-- What comes before a moment of a run is a run that leads to it. -/
theorem moments_eq_append {before after : List Moment} {t : Moment}
    (h : m.moments inputs = before ++ t :: after) :
    ∃ past, before = m.moments past ∧ t.machine = (m.run past).1 := by
  induction inputs generalizing m before with
  | nil => exact absurd h (by simp [moments])
  | cons input rest ih =>
    cases before with
    | nil =>
      obtain ⟨rfl, -⟩ := List.cons.inj h
      exact ⟨[], rfl, rfl⟩
    | cons first before =>
      obtain ⟨rfl, hrest⟩ := List.cons.inj h
      obtain ⟨past, hbefore, hmachine⟩ := ih hrest
      exact ⟨input :: past, congrArg (_ :: ·) hbefore, hmachine⟩

/-- An invariant holds at every moment of a run. -/
theorem invariant_at {P : List Moment → Machine → Prop} (start : P [] m)
    (step : ∀ before t, P before t.machine → P (before ++ [t]) t.next)
    {before after : List Moment} {t : Moment} (h : m.moments inputs = before ++ t :: after) :
    P before t.machine := by
  obtain ⟨past, rfl, hmachine⟩ := moments_eq_append h
  rw [hmachine]
  exact moments_induction start step past

theorem bearing_next (t : Moment) : Bearing t.machine t.input t.next t.actions :=
  bearing_step _ _

/-! ## What is taken in -/

/-- The index that is taken in at a moment. -/
def Moment.taken? (t : Moment) : Option (IndexFrame × Instant) :=
  t.input.index?.filter fun index => decide (t.machine.Admits index.1)

theorem Moment.taken?_eq_some_iff {t : Moment} {index : IndexFrame} {now : Instant} :
    t.taken? = some (index, now) ↔
      t.input.index? = some (index, now) ∧ t.machine.Admits index := by
  simp [Moment.taken?, Option.filter_eq_some_iff]

theorem Moment.step_of_taken {t : Moment} {index : IndexFrame} {now : Instant}
    (h : t.taken? = some (index, now)) :
    t.next = { t.machine with
      sources := (t.machine.sources.update index.sources).1
      indexed := true
      visits := t.machine.visits.rest } ∧
    t.actions = t.machine.indexNews index now := by
  obtain ⟨hindex, hadmits⟩ := Moment.taken?_eq_some_iff.mp h
  unfold Moment.next Moment.actions
  rw [step_of_admits hindex hadmits, onIndex_of_admits hadmits]
  exact ⟨rfl, rfl⟩

theorem Moment.sources_of_untaken {t : Moment} (h : t.taken? = none) :
    t.next.sources = t.machine.sources := by
  have hbearing := bearing_next t
  generalize t.next = next at hbearing ⊢
  generalize t.actions = actions at hbearing
  cases hbearing with
  | aside standing => exact congrArg Standing.sources standing
  | indexed index now brings admits =>
    have htaken := taken?_eq_some_iff.mpr ⟨brings, admits⟩
    exact absurd (h.symm.trans htaken) (by simp)
  | _ => rfl

/-- Only an index that is taken in brings news of the sources. -/
theorem Moment.taken_of_news {t : Moment} {a : Action} (h : a ∈ t.actions)
    (news : a.isSourceNews = true) :
    ∃ index now, t.taken? = some (index, now) ∧ a ∈ t.machine.indexNews index now := by
  have hbearing := bearing_next t
  generalize t.next = next at hbearing
  generalize t.actions = actions at hbearing h
  cases hbearing with
  | aside _ _ unmarked =>
    have hsilent := Action.isSourceNews_of_unmarked (unmarked a h)
    exact absurd (hsilent.symm.trans news) (by simp)
  | indexed index now brings admits =>
    exact ⟨index, now, Moment.taken?_eq_some_iff.mpr ⟨brings, admits⟩, h⟩
  | letIn => rcases List.mem_pair.mp h with rfl | rfl <;> exact absurd news Bool.false_ne_true
  | ponged => exact absurd h (by simp)
  | pinged | lost =>
    obtain rfl := List.mem_singleton.mp h
    exact absurd news Bool.false_ne_true

/-- A session that is over is not taken up again. -/
theorem Moment.isTerminal_of_next {t : Moment} (h : t.next.state.isTerminal = false) :
    t.machine.state.isTerminal = false := by
  cases hend : t.machine.state.isTerminal with
  | false => rfl
  | true =>
    rw [Moment.next, (step_of_isTerminal hend t.input).1, hend] at h
    exact h

end Machine

end Parley
