/-!
# `Parley/Audio/Downmix.lean` — many channels into one

Interleaved samples are cut into groups of one sample per channel, and each group becomes its
average, rounded toward zero. A group that is not complete is dropped.
-/

set_option autoImplicit false

namespace Parley.Audio

/-- The complete groups of `n` members, in order. -/
def groups {α : Type} (n : Nat) (xs : List α) : List (List α) :=
  if _ : 0 < n ∧ (xs.take n).length = n then xs.take n :: groups n (xs.drop n) else []
termination_by xs.length
decreasing_by
  rename_i h
  have := h.2
  simp only [List.length_take, List.length_drop] at this ⊢
  omega

/-- What the complete groups of `n` members leave over. -/
def leftover {α : Type} (n : Nat) (xs : List α) : List α := xs.drop (xs.length / n * n)

theorem length_of_mem_groups {α : Type} {n : Nat} {xs group : List α}
    (h : group ∈ groups n xs) : group.length = n := by
  induction xs using groups.induct n with
  | case1 xs hfull ih =>
    rw [groups, dif_pos hfull] at h
    rcases List.mem_cons.mp h with rfl | hrest
    · exact hfull.2
    · exact ih hrest
  | case2 xs hshort =>
    rw [groups, dif_neg hshort] at h
    cases h

/-- The groups and what they leave over are the whole, in order. -/
theorem flatten_groups {α : Type} (n : Nat) (xs : List α) :
    (groups n xs).flatten ++ leftover n xs = xs := by
  induction xs using groups.induct n with
  | case1 xs hfull ih =>
    have hle : n ≤ xs.length := by
      have hlength := hfull.2
      rw [List.length_take] at hlength
      omega
    have hleft : leftover n xs = leftover n (xs.drop n) := by
      have hcount : xs.length / n = (xs.length - n) / n + 1 := by
        rw [← Nat.add_div_right _ hfull.1, Nat.sub_add_cancel hle]
      simp only [leftover, List.drop_drop, List.length_drop, hcount, Nat.succ_mul]
      rw [Nat.add_comm n]
    rw [groups, dif_pos hfull, hleft, List.flatten_cons, List.append_assoc, ih,
      List.take_append_drop]
  | case2 xs hshort =>
    have hnone : xs.length / n * n = 0 := by
      rcases Nat.eq_zero_or_pos n with rfl | hpos
      · rfl
      · have hlt : xs.length < n := by
          refine Nat.not_le.mp fun hle => hshort ⟨hpos, ?_⟩
          rw [List.length_take, Nat.min_eq_left hle]
        rw [Nat.div_eq_of_lt hlt, Nat.zero_mul]
    rw [groups, dif_neg hshort, leftover, hnone]
    rfl

theorem length_leftover_lt {α : Type} {n : Nat} (h : 0 < n) (xs : List α) :
    (leftover n xs).length < n := by
  have hmod := Nat.mod_lt xs.length h
  have hdiv := Nat.div_add_mod' xs.length n
  rw [leftover, List.length_drop]
  omega

/-- The average of some samples, rounded toward zero. -/
def average (samples : List Int16) : Int16 :=
  Int16.ofInt (Int.tdiv ((samples.map Int16.toInt).foldr (· + ·) 0) samples.length)

/-- The average of the channels. One channel, or none declared, is taken as it is. -/
def downmix (channels : UInt16) (samples : List Int16) : List Int16 :=
  if channels ≤ 1 then samples else (groups channels.toNat samples).map average

end Parley.Audio
