import Mathlib

namespace annexb

/-- The three bytes 0, 0, 1 stand at `i`. -/
def StartCode (bits : List UInt8) (i : Nat) : Prop :=
  bits[i]? = some 0 ∧ bits[i + 1]? = some 0 ∧ bits[i + 2]? = some 1

instance (bits : List UInt8) (i : Nat) : Decidable (StartCode bits i) := inferInstanceAs (Decidable (_ ∧ _))

/-- The first start code at or after `i`. -/
def next_start_code (bits : List UInt8) (i : Nat) : Option Nat :=
  if i + 2 < bits.length then
    if StartCode bits i then some i else next_start_code bits (i + 1)
  else none
termination_by bits.length - i

variable {bits : List UInt8} {i j p q : Nat}

theorem StartCode.lt_length (hcode : StartCode bits i) : i + 2 < bits.length :=
  (List.getElem?_eq_some_iff.mp hcode.2.2).1

/-- Start codes do not overlap: the last byte of one is no byte of another but
    its last. -/
theorem StartCode.apart (hp : StartCode bits p) (hq : StartCode bits q) (hlt : p < q) : p + 3 ≤ q := by
  obtain ⟨-, -, hone⟩ := hp
  obtain ⟨hzero, hzero', -⟩ := hq
  by_contra hnear
  rcases (show q = p + 1 ∨ q = p + 2 by omega) with rfl | rfl
  · rw [hone] at hzero'
    cases hzero'
  · rw [hone] at hzero
    cases hzero

/-- No start code stands right before another one's first byte. -/
theorem StartCode.not_before (hcode : StartCode bits (i + 1)) : ¬ StartCode bits i := by
  intro h
  have := h.apart hcode (Nat.lt_succ_self i)
  omega

/-- What the search finds is a start code, and none that begins before the search
    does. -/
theorem next_start_code_some (h : next_start_code bits i = some p) : i ≤ p ∧ StartCode bits p := by
  fun_induction next_start_code bits i with
  | case1 i hlt hcode =>
    cases h
    exact ⟨Nat.le_refl _, hcode⟩
  | case2 i hlt hcode ih =>
    obtain ⟨hle, hp⟩ := ih h
    exact ⟨Nat.le_of_succ_le hle, hp⟩
  | case3 i hlt => cases h

/-- It is the first. -/
theorem next_start_code_le (hp : StartCode bits p) (hle : i ≤ p) : ∃ q, next_start_code bits i = some q ∧ q ≤ p := by
  fun_induction next_start_code bits i with
  | case1 i hlt hcode => exact ⟨i, rfl, hle⟩
  | case2 i hlt hcode ih =>
    apply ih
    rcases Nat.lt_or_eq_of_le hle with hlt' | rfl
    · exact hlt'
    · exact absurd hp hcode
  | case3 i hlt =>
    have := hp.lt_length
    omega

/-- At a start code the search is over at once. -/
theorem next_start_code_self (hcode : StartCode bits i) : next_start_code bits i = some i := by
  unfold next_start_code
  rw [if_pos hcode.lt_length, if_pos hcode]

/-- The byte in front of a start code may be skipped as well as not. -/
theorem next_start_code_before (hcode : StartCode bits (i + 1)) : next_start_code bits i = some (i + 1) := by
  have := hcode.lt_length
  unfold next_start_code
  rw [if_pos (by omega), if_neg hcode.not_before, next_start_code_self hcode]

/-- Where a NAL unit ends whose next start code is at `q`: a zero byte in front of
    it belongs to the start code. -/
def unit_end (bits : List UInt8) (q : Nat) : Nat := if bits[q - 1]? = some 0 then q - 1 else q

/-- Where the NAL unit that begins at `start` ends: at the next start code, or
    with the bytes. -/
def unit_stop (bits : List UInt8) (start : Nat) : Nat :=
  match next_start_code bits start with
  | some q => unit_end bits q
  | none => bits.length

/-- The byte in front of a NAL unit is the 1 of its start code. -/
theorem StartCode.le_unit_end (hp : StartCode bits p) (hle : p + 3 ≤ q) : p + 3 ≤ unit_end bits q := by
  unfold unit_end
  split
  · rename_i hzero
    rcases Nat.lt_or_eq_of_le hle with hlt | rfl
    · omega
    · have hone : bits[p + 3 - 1]? = some 1 := hp.2.2
      rw [hone] at hzero
      cases hzero
  · exact hle

/-- The end of a NAL unit is not behind the next start code. -/
theorem unit_end_le : unit_end bits q ≤ q := by
  unfold unit_end
  split
  · exact Nat.sub_le q 1
  · exact Nat.le_refl q

/-- A NAL unit does not end before it begins, right behind its start code. -/
theorem StartCode.le_unit_stop (hp : StartCode bits p) : p + 3 ≤ unit_stop bits (p + 3) := by
  unfold unit_stop
  split
  · rename_i q hq
    exact hp.le_unit_end (next_start_code_some hq).1
  · exact hp.lt_length

theorem unit_stop_le_length : unit_stop bits i ≤ bits.length := by
  unfold unit_stop
  split
  · rename_i q hq
    have := (next_start_code_some hq).2.lt_length
    have hend : unit_end bits q ≤ q := unit_end_le
    omega
  · exact Nat.le_refl _

/-- From the end of a NAL unit the next start code is found, if there is one. The
    end is in front of the trailing zeros, so that no start code is passed over. -/
theorem next_start_code_unit_stop (hp : StartCode bits p) :
    next_start_code bits (unit_stop bits (p + 3)) = next_start_code bits (p + 3) := by
  unfold unit_stop
  cases hnext : next_start_code bits (p + 3) with
  | none =>
    dsimp only
    unfold next_start_code
    rw [if_neg (by omega)]
  | some q =>
    have hq := next_start_code_some hnext
    have hstop := hp.le_unit_end hq.1
    dsimp only
    unfold unit_end at hstop ⊢
    split at hstop
    · rename_i hzero
      rw [if_pos hzero]
      obtain ⟨r, rfl⟩ : ∃ r, q = r + 1 := ⟨q - 1, by omega⟩
      exact next_start_code_before hq.2
    · rename_i hzero
      rw [if_neg hzero]
      exact next_start_code_self hq.2

/-- Where the NAL unit begins that is next from `pos`: after its start code, or
    right there. -/
def unit_start (bits : List UInt8) (pos : Nat) : Nat :=
  match next_start_code bits pos with
  | some q => q + 3
  | none => pos

/-- The size of the NAL unit that is next from `pos`. -/
def unit_size (bits : List UInt8) (pos : Nat) : Nat := unit_stop bits (unit_start bits pos) - unit_start bits pos

/-- Every NAL unit that begins at or after `pos` has at most `limit` bytes. -/
def UnitsWithin (limit : Nat) (bits : List UInt8) (pos : Nat) : Prop :=
  ∀ p, pos ≤ p → StartCode bits p → unit_stop bits (p + 3) - (p + 3) ≤ limit

/-- A limit on all the NAL units from a place on is one on those from a later place
    on. -/
theorem UnitsWithin.mono {limit : Nat} (h : UnitsWithin limit bits i) (hle : i ≤ j) : UnitsWithin limit bits j :=
  fun p hp hcode => h p (hle.trans hp) hcode

theorem unit_start_of_some (h : next_start_code bits i = some p) : unit_start bits i = p + 3 := by
  rw [unit_start, h]

end annexb
