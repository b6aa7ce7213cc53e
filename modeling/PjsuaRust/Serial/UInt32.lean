import PjsuaRust.Serial.Basic

namespace serial

/-- The `n`-th number of the numbering of 32-bit integers that skips zero. -/
def u32 (n : Nat) : UInt32 := UInt32.ofNat (number (2 ^ 32) n)

/-- The 32-bit numbering is the general one with its modulus. -/
@[simp] theorem toNat_u32 (n : Nat) : (u32 n).toNat = number (2 ^ 32) n := by
  have hlt := number_lt (M := 2 ^ 32) (by decide) n
  simpa [u32] using Nat.mod_eq_of_lt hlt

theorem u32_ne_zero (n : Nat) : u32 n ≠ 0 := by
  intro hzero
  have hnat := congrArg UInt32.toNat hzero
  have hpos := number_pos (2 ^ 32) n
  rw [toNat_u32] at hnat
  change number (2 ^ 32) n = 0 at hnat
  omega

/-- Every nonzero number has a place in the numbering. -/
theorem u32_pred {x : UInt32} (hx : x ≠ 0) : u32 (x.toNat - 1) = x := by
  have hlt := x.toNat_lt
  have hpos : x.toNat ≠ 0 := fun h => hx (UInt32.toNat_inj.mp h)
  apply UInt32.toNat_inj.mp
  rw [toNat_u32, number, Nat.mod_eq_of_lt (by omega)]
  omega

theorem toNat_add_one (x : UInt32) :
    (x + 1).toNat = if x.toNat + 1 = 2 ^ 32 then 0 else x.toNat + 1 := by
  have hlt := x.toNat_lt
  have hadd : (x + 1).toNat = (x.toNat + 1) % 2 ^ 32 := by simp
  split <;> omega

/-- `wrapping_add(1)` and then one in zero's place counts on by one. So the ids are
    the numbers from 1 to 2 ^ 32 - 1, over and over. -/
theorem u32_succ (n : Nat) (next : UInt32)
    (hnext : next = if u32 n + 1 = 0 then 1 else u32 n + 1) : next = u32 (n + 1) := by
  have hsucc := number_succ (M := 2 ^ 32) (by decide) n
  have hadd := toNat_add_one (u32 n)
  rw [toNat_u32] at hadd
  apply UInt32.toNat_inj.mp
  rw [toNat_u32, hsucc, hnext]
  by_cases hlast : number (2 ^ 32) n + 1 = 2 ^ 32
  · rw [if_pos hlast] at hadd ⊢
    rw [if_pos (UInt32.toNat_inj.mp hadd)]
    rfl
  · rw [if_neg hlast] at hadd ⊢
    have hne : u32 n + 1 ≠ 0 := by
      intro hzero
      rw [hzero] at hadd
      simp at hadd
    rw [if_neg hne, hadd]

theorem max_one_eq (x : UInt32) : max x 1 = if x = 0 then 1 else x := by
  by_cases hzero : x = 0
  · subst hzero
    rfl
  · rw [if_neg hzero]
    change (if x ≤ 1 then 1 else x) = x
    by_cases hle : x ≤ 1
    · rw [if_pos hle]
      have hpos : x.toNat ≠ 0 := fun h => hzero (UInt32.toNat_inj.mp h)
      have hone : x.toNat ≤ 1 := UInt32.le_iff_toNat_le.mp hle
      apply UInt32.toNat_inj.mp
      change 1 = x.toNat
      omega
    · rw [if_neg hle]

/-- A 32-bit value read as a signed integer is not negative exactly when it is
    in the lower half of the range. -/
theorem zero_le_toInt32_iff (x : UInt32) : 0 ≤ x.toInt32 ↔ x.toNat < 2 ^ 31 := by
  have hlt : x.toBitVec.toNat < 2 ^ 32 := x.toNat_lt
  rw [Int32.le_iff_toInt_le]
  change 0 ≤ x.toBitVec.toInt ↔ x.toBitVec.toNat < 2 ^ 31
  rw [BitVec.toInt_eq_toNat_cond]
  split <;> omega

/-- The signed reading of a wrapping difference decides `AtOrAfter`. -/
theorem zero_le_sub_toInt32_iff (a b : UInt32) :
    0 ≤ (a - b).toInt32 ↔ AtOrAfter (2 ^ 32) a.toNat b.toNat := by
  rw [zero_le_toInt32_iff, UInt32.toNat_sub]
  rfl

/-- An id compares as equal to itself. -/
theorem zero_le_self_sub_toInt32 (a : UInt32) : 0 ≤ (a - a).toInt32 := by
  rw [zero_le_sub_toInt32_iff]
  exact atOrAfter_self (by decide) a.toNat_lt

/-- The ids of frames fewer than `2 ^ 31` places apart compare in the order in
    which they were given out. -/
theorem not_zero_le_u32_sub (n : Nat) {d : Nat} (hpos : 0 < d) (hd : d < 2 ^ 31) :
    ¬ 0 ≤ (u32 n - u32 (n + d)).toInt32 := by
  rw [zero_le_sub_toInt32_iff, toNat_u32, toNat_u32]
  exact not_atOrAfter_of_newer (by decide) n hpos (by simpa using hd)

/-- Two places less than half a cycle apart have different numbers. -/
theorem u32_ne_of_lt {i j : Nat} (hlt : i < j) (hd : j < i + 2 ^ 31) : u32 j ≠ u32 i := by
  obtain ⟨d, rfl⟩ := Nat.exists_eq_add_of_lt hlt
  intro heq
  have hnat := congrArg UInt32.toNat heq
  rw [toNat_u32, toNat_u32] at hnat
  exact number_ne (M := 2 ^ 32) i (d := d + 1) (by omega) (by omega) hnat

/-- The ids of frames less than half a cycle apart compare as equal or newer in the
    other direction. -/
theorem zero_le_u32_sub (n : Nat) {d : Nat} (hd : d + 1 < 2 ^ 31) : 0 ≤ (u32 (n + d) - u32 n).toInt32 := by
  rw [zero_le_sub_toInt32_iff, toNat_u32, toNat_u32]
  exact atOrAfter_of_older (by decide) n (by simpa using hd)

/-- `wrapping_add(1).max(1)` counts on by one. -/
theorem max_u32_succ (n : Nat) : max (u32 n + 1) 1 = u32 (n + 1) :=
  u32_succ n _ (max_one_eq _)

/-- The `k` numbers from the `n`-th on. -/
def u32_range (n k : Nat) : List UInt32 := (List.range' n k).map u32

@[simp] theorem length_u32_range (n k : Nat) : (u32_range n k).length = k := by
  rw [u32_range, List.length_map, List.length_range']

theorem getElem_u32_range {n k i : Nat} (hi : i < (u32_range n k).length) : (u32_range n k)[i] = u32 (n + i) := by
  simp only [u32_range, List.getElem_map, List.getElem_range', Nat.one_mul]

/-- A range grows at its end. -/
theorem u32_range_succ (n k : Nat) : u32_range n (k + 1) = u32_range n k ++ [u32 (n + k)] := by
  simp only [u32_range, List.range'_1_concat, List.map_append, List.map_singleton]

/-- What such a range ends with is such a range again. -/
theorem eq_u32_range_of_suffix {n k : Nat} {l : List UInt32} (hsuffix : l <:+ u32_range n k) :
    l = u32_range (n + (k - l.length)) l.length := by
  have hle := hsuffix.length_le
  rw [length_u32_range] at hle
  have hdrop := List.suffix_iff_eq_drop.mp hsuffix
  rw [length_u32_range, u32_range, ← List.map_drop, List.drop_range', Nat.mul_one] at hdrop
  rw [u32_range]
  rwa [show k - (k - l.length) = l.length by omega] at hdrop

/-- Within half a cycle no number is used twice, wherever it begins and whether it
    goes past the end or not. -/
theorem nodup_u32_range {n k : Nat} (hk : k ≤ 2 ^ 31) : (u32_range n k).Nodup := by
  rw [u32_range]
  apply List.Nodup.map_on _ (List.nodup_range' 1 (by decide))
  intro i hi j hj heq
  rw [List.mem_range'_1] at hi hj
  rcases Nat.lt_trichotomy i j with hlt | hsame | hlt
  · exact absurd heq.symm (u32_ne_of_lt hlt (by omega))
  · exact hsame
  · exact absurd heq (u32_ne_of_lt hlt (by omega))

/-- Each number of a range is its predecessor counted on by one. -/
theorem isChain_u32_range (n k : Nat) : (u32_range n k).IsChain fun a b => b = max (a + 1) 1 := by
  rw [List.isChain_iff_getElem]
  intro i hi
  rw [getElem_u32_range, getElem_u32_range, max_u32_succ, Nat.add_assoc]

end serial
