/-!
# `Parley/Proofs/Text/Pattern.lean` — patterns that are looked for in a text

A pattern matches a part of a text, and whether it does may depend on what stands before and after
this part: the two ends of a text are patterns of their own, each of which matches an empty part and
only there. A pattern is found in a text if it matches any part of it. So one that begins and ends
with the two ends is found only in texts that the rest of it matches as a whole
(`isFoundIn_whole_iff`), and a line end at the end of a text makes no difference to that.
-/

set_option autoImplicit false

namespace Parley.Text

inductive Pattern where
  /-- The beginning of the text. -/
  | start
  /-- The end of the text. -/
  | stop
  /-- One character from any of these ranges. -/
  | oneOf (ranges : List (Char × Char))
  | both (first second : Pattern)
  /-- So many times or more, one after the other, and so many times at most. -/
  | repeated (least most : Nat) (p : Pattern)

/-- Whether a character lies in one of some ranges. -/
def InRanges (ranges : List (Char × Char)) (c : Char) : Prop := ∃ r ∈ ranges, r.1 ≤ c ∧ c ≤ r.2

namespace Pattern

/-- A pattern matches the middle one of three parts of a text. -/
inductive Matches : Pattern → List Char → List Char → List Char → Prop where
  | start {after : List Char} : Matches .start [] [] after
  | stop {before : List Char} : Matches .stop before [] []
  | oneOf {ranges : List (Char × Char)} {before after : List Char} {c : Char}
      (mem : InRanges ranges c) : Matches (.oneOf ranges) before [c] after
  | both {p q : Pattern} {before first second after : List Char}
      (left : p.Matches before first (second ++ after))
      (right : q.Matches (before ++ first) second after) :
      Matches (.both p q) before (first ++ second) after
  | enough {p : Pattern} {most : Nat} {before after : List Char} :
      Matches (.repeated 0 most p) before [] after
  | again {p : Pattern} {least most : Nat} {before first second after : List Char}
      (once : p.Matches before first (second ++ after))
      (more : Matches (.repeated (least - 1) most p) (before ++ first) second after) :
      Matches (.repeated least (most + 1) p) before (first ++ second) after

/-- Whether a pattern matches some part of a text. -/
def IsFoundIn (p : Pattern) (text : String) : Prop :=
  ∃ before here after, text.toList = before ++ here ++ after ∧ p.Matches before here after

/-- A pattern for whole texts. -/
def whole (p : Pattern) : Pattern := .both .start (.both p .stop)

variable {p : Pattern} {ranges : List (Char × Char)} {before here after : List Char}

theorem isFoundIn_whole_iff {text : String} :
    p.whole.IsFoundIn text ↔ p.Matches [] text.toList [] := by
  constructor
  · rintro ⟨before, here, after, htext, hmatch⟩
    cases hmatch with
    | both left right =>
      cases left with
      | start =>
        cases right with
        | both left right =>
          cases right with
          | stop =>
            rw [htext]
            simpa using left
  · intro hmatch
    have hright : (Pattern.both p .stop).Matches ([] ++ []) (text.toList ++ []) [] :=
      .both hmatch .stop
    exact ⟨[], [] ++ (text.toList ++ []), [], by simp, .both .start hright⟩

/-- A repeated choice of characters takes so many of them, whatever stands around. -/
theorem matches_repeated_oneOf_iff {least most : Nat} :
    (repeated least most (.oneOf ranges)).Matches before here after ↔
      least ≤ here.length ∧ here.length ≤ most ∧ ∀ c ∈ here, InRanges ranges c := by
  constructor
  · intro h
    induction most generalizing least before here with
    | zero =>
      cases h with
      | enough => simp
    | succ most ih =>
      cases h with
      | enough => simp
      | again once more =>
        obtain ⟨hleast, hmost, hall⟩ := ih more
        cases once with
        | oneOf mem =>
          simp only [List.singleton_append, List.length_cons]
          exact ⟨by omega, by omega, List.forall_mem_cons.mpr ⟨mem, hall⟩⟩
  · rintro ⟨hleast, hmost, hall⟩
    induction here generalizing least most before with
    | nil =>
      obtain rfl : least = 0 := Nat.le_zero.mp hleast
      exact .enough
    | cons c rest ih =>
      obtain ⟨hc, hrest⟩ := List.forall_mem_cons.mp hall
      rw [List.length_cons] at hleast hmost
      obtain ⟨most, rfl⟩ := Nat.exists_eq_add_of_lt (Nat.lt_of_lt_of_le (Nat.succ_pos _) hmost)
      rw [Nat.zero_add] at hmost ⊢
      have hmore : (repeated (least - 1) most (.oneOf ranges)).Matches (before ++ [c]) rest after :=
        ih (by omega) (by omega) hrest
      exact .again (.oneOf hc) hmore

end Pattern

end Parley.Text
