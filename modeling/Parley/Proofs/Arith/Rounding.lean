import Mathlib.Data.Nat.Prime.Basic
import Mathlib.Data.Rat.Floor
import Mathlib.Tactic.Linarith
import Parley.Arith.Precision

/-!
# `Parley/Proofs/Arith/Rounding.lean` — where nothing is lost

A calculation on multiples of one part in `den` stays among them as long as it adds, subtracts and
takes whole multiples (`IsMultiple`). A precision keeps them up to so many parts
(`Precision.Keeps`): the exact one keeps all, and one of so many binary digits keeps the parts of a
power of two as far as those digits go. So a bound on the numbers that come up is all that a
calculation needs to be exact (`Keeps.round_eq`).
-/

set_option autoImplicit false

namespace Parley.Arith

/-! ## Multiples of one part in so many -/

/-- A multiple of one part in so many. -/
def IsMultiple (den : Nat) (q : Rat) : Prop := ∃ m : Int, q * den = m

namespace IsMultiple

variable {den : Nat} {p q : Rat}

theorem of_den (q : Rat) : IsMultiple q.den q := ⟨q.num, q.mul_den_eq_num⟩

theorem intCast (n : Int) : IsMultiple den n := ⟨n * den, by push_cast; rfl⟩

theorem add (hp : IsMultiple den p) (hq : IsMultiple den q) : IsMultiple den (p + q) := by
  obtain ⟨m, hm⟩ := hp
  obtain ⟨n, hn⟩ := hq
  exact ⟨m + n, by rw [add_mul, hm, hn, Int.cast_add]⟩

theorem sub (hp : IsMultiple den p) (hq : IsMultiple den q) : IsMultiple den (p - q) := by
  obtain ⟨m, hm⟩ := hp
  obtain ⟨n, hn⟩ := hq
  exact ⟨m - n, by rw [sub_mul, hm, hn, Int.cast_sub]⟩

theorem intCast_mul (n : Int) (hq : IsMultiple den q) : IsMultiple den (n * q) := by
  obtain ⟨m, hm⟩ := hq
  exact ⟨n * m, by rw [mul_assoc, hm, Int.cast_mul]⟩

end IsMultiple

namespace Precision

/-- Whether nothing is lost on the multiples of one part in `den`, up to `limit` parts. -/
def Keeps (p : Precision) (den limit : Nat) : Prop :=
  ∀ (q : Rat) (m : Int), q * den = m → m.natAbs ≤ limit → p.round q = q

theorem keeps_exact (den limit : Nat) : exact.Keeps den limit := fun _ _ _ _ => rfl

/-- Binary digits are parts of powers of two. -/
theorem keeps_significant {bits e limit : Nat} (hlimit : limit ≤ 2 ^ bits) :
    (significant bits).Keeps (2 ^ e) limit := by
  intro q m hq hm
  have hpow : ((2 ^ e : Nat) : Int) ≠ 0 := by positivity
  have hdiv : q = Rat.divInt m (2 ^ e : Nat) := by
    rw [Rat.divInt_eq_div, eq_div_iff (by exact_mod_cast hpow)]
    exact_mod_cast hq
  have hden : q.den ∣ 2 ^ e := by
    have hdvd := Rat.den_dvd m (2 ^ e : Nat)
    rw [← hdiv] at hdvd
    exact_mod_cast hdvd
  obtain ⟨i, -, hi⟩ := (Nat.dvd_prime_pow Nat.prime_two).mp hden
  refine round_of_dyadic ?_ ?_
  · rw [hi]
    simp
  · have hnum : q.num ∣ m := by
      have hdvd := Rat.num_dvd m hpow
      rwa [← hdiv] at hdvd
    by_cases hzero : m = 0
    · rw [hdiv, hzero]
      simp
    · calc q.num.natAbs ≤ m.natAbs := Int.natAbs_le_of_dvd_ne_zero hnum hzero
        _ ≤ 2 ^ bits := hm.trans hlimit

theorem Keeps.round_eq {p : Precision} {den limit : Nat} (h : p.Keeps den limit) {q c : Rat}
    (hq : IsMultiple den q) (hc : c * den ≤ limit) (hlow : -c ≤ q) (hhigh : q ≤ c) :
    p.round q = q := by
  obtain ⟨m, hm⟩ := hq
  have hpos : (0 : Rat) ≤ den := Nat.cast_nonneg den
  have hle : (m : Rat) ≤ limit := by
    rw [← hm]
    exact (mul_le_mul_of_nonneg_right hhigh hpos).trans hc
  have hge : -(limit : Rat) ≤ m := by
    rw [← hm]
    have := mul_le_mul_of_nonneg_right hlow hpos
    linarith
  have hle' : m ≤ limit := by exact_mod_cast hle
  have hge' : -(limit : Int) ≤ m := by exact_mod_cast hge
  exact h q m hm (by omega)

end Precision

/-! ## Rounding to whole numbers -/

theorem floor_sub_natCast (q : Rat) (n : Nat) : (q - n).floor = q.floor - n := by
  have hsub : q - n = q + ((-n : Int) : Rat) := by
    push_cast
    ring
  rw [hsub, Rat.floor_add_intCast]
  rfl

theorem le_nearestAway {n : Int} {q : Rat} (h : (n : Rat) ≤ q) : n ≤ nearestAway q := by
  unfold nearestAway
  split
  · exact Rat.le_floor_iff.mpr (by linarith)
  · have hlt : (-q + 1 / 2).floor < -n + 1 := Rat.floor_lt_iff.mpr (by push_cast; linarith)
    omega

theorem nearestAway_le {n : Int} {q : Rat} (h : q ≤ n) : nearestAway q ≤ n := by
  unfold nearestAway
  split
  · have hlt : (q + 1 / 2).floor < n + 1 := Rat.floor_lt_iff.mpr (by push_cast; linarith)
    omega
  · have hle : -n ≤ (-q + 1 / 2).floor := Rat.le_floor_iff.mpr (by push_cast; linarith)
    omega

end Parley.Arith
