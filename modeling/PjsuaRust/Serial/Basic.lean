import Mathlib

namespace serial

/-- The `n`-th number of an endless numbering by `1, 2, …, M - 1, 1, 2, …`. It
    wraps at `M` as a machine integer does, and never uses zero. -/
def number (M n : Nat) : Nat := n % (M - 1) + 1

/-- The wrapping difference `a - b` of two machine integers below `M`. -/
def distance (M a b : Nat) : Nat := (M - b + a) % M

/-- `a` is at or after `b`: the wrapping difference, read as a signed integer,
    is not negative. -/
def AtOrAfter (M a b : Nat) : Prop := distance M a b < M / 2

instance (M a b : Nat) : Decidable (AtOrAfter M a b) :=
  inferInstanceAs (Decidable (_ < _))

variable {M : Nat}

/-- Zero is never used. -/
theorem number_pos (M n : Nat) : 0 < number M n := Nat.succ_pos _

/-- The numbers stay below the modulus, which must leave room for one of them. -/
theorem number_lt (hM : 2 ≤ M) (n : Nat) : number M n < M := by
  have := Nat.mod_lt n (show 0 < M - 1 by omega)
  simp only [number]
  omega

/-- Counting on by one, with the step from the largest number back to one. -/
theorem number_succ (hM : 2 ≤ M) (n : Nat) :
    number M (n + 1) = if number M n + 1 = M then 1 else number M n + 1 := by
  have hlt := Nat.mod_lt n (show 0 < M - 1 by omega)
  by_cases hlast : number M n + 1 = M
  · rw [if_pos hlast]
    simp only [number] at hlast ⊢
    rw [← Nat.mod_add_mod, show n % (M - 1) + 1 = M - 1 by omega, Nat.mod_self]
  · rw [if_neg hlast]
    simp only [number] at hlast ⊢
    rw [← Nat.mod_add_mod, Nat.mod_eq_of_lt (show n % (M - 1) + 1 < M - 1 by omega)]

/-- Numbers less than a whole cycle apart count on by their distance, with one
    more where zero is skipped between them. -/
theorem number_add (n : Nat) {d : Nat} (hd : d < M - 1) :
    number M (n + d) = number M n + d ∨ number M (n + d) + (M - 1) = number M n + d := by
  have hlt := Nat.mod_lt n (show 0 < M - 1 by omega)
  simp only [number]
  rw [Nat.add_mod, Nat.mod_eq_of_lt hd]
  by_cases hwrap : n % (M - 1) + d < M - 1
  · left
    rw [Nat.mod_eq_of_lt hwrap]
    omega
  · right
    rw [Nat.mod_eq_sub_mod (by omega), Nat.mod_eq_of_lt (by omega)]
    omega

/-- Within one cycle no number is used twice. -/
theorem number_ne (n : Nat) {d : Nat} (hpos : 0 < d) (hd : d < M - 1) :
    number M (n + d) ≠ number M n := by
  have hadd := number_add n hd
  omega

/-- Every number is at or after itself. -/
@[simp] theorem atOrAfter_self (hM : 2 ≤ M) {a : Nat} (ha : a < M) : AtOrAfter M a a := by
  have hsum : M - a + a = M := by omega
  simp only [AtOrAfter, distance, hsum, Nat.mod_self]
  omega

/-- An older number is not at or after a newer one that is less than half a
    cycle ahead of it. -/
theorem not_atOrAfter_of_newer (hM : 2 ≤ M) (n : Nat) {d : Nat} (hpos : 0 < d) (hd : d < M / 2) :
    ¬ AtOrAfter M (number M n) (number M (n + d)) := by
  have hn := number_lt hM n
  have hnd := number_lt hM (n + d)
  have hpos' := number_pos M n
  simp only [AtOrAfter, distance]
  rcases number_add (M := M) n (d := d) (by omega) with heq | heq
  · have hdiff : M - number M (n + d) + number M n = M - d := by omega
    rw [hdiff, Nat.mod_eq_of_lt (by omega)]
    omega
  · have hdiff : M - number M (n + d) + number M n = M + (M - 1 - d) := by omega
    rw [hdiff, Nat.add_mod_left, Nat.mod_eq_of_lt (by omega)]
    omega

/-- A newer number is at or after an older one that is less than half a cycle
    behind it, the skipped zero included. -/
theorem atOrAfter_of_older (hM : 2 ≤ M) (n : Nat) {d : Nat} (hd : d + 1 < M / 2) :
    AtOrAfter M (number M (n + d)) (number M n) := by
  have hn := number_lt hM n
  have hnd := number_lt hM (n + d)
  have hpos' := number_pos M n
  simp only [AtOrAfter, distance]
  rcases number_add (M := M) n (d := d) (by omega) with heq | heq
  · have hdiff : M - number M n + number M (n + d) = M + d := by omega
    rw [hdiff, Nat.add_mod_left, Nat.mod_eq_of_lt (by omega)]
    omega
  · have hdiff : M - number M n + number M (n + d) = d + 1 := by omega
    rw [hdiff, Nat.mod_eq_of_lt (by omega)]
    omega

end serial
