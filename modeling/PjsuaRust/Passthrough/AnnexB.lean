import PjsuaRust.Pjlib.Status

namespace pjsua_rust.video_passthrough

/-- The loop of `is_keyframe` from index `i` on. -/
def is_keyframe_loop (bits : List UInt8) (i : Nat) : Bool :=
  if h : i + 3 < bits.length then
    if bits[i] = 0 ∧ bits[i + 1] = 0 ∧ bits[i + 2] = 1 then
      let type := bits[i + 3] &&& 0x1F
      if type = 5 ∨ type = 7 then true
      else is_keyframe_loop bits (i + 2 + 1)
    else is_keyframe_loop bits (i + 1)
  else false
termination_by bits.length - i

/-- Whether an Annex-B access unit has an IDR slice or an SPS. The buffer is
    shorter than `2 ^ 32 - 3`, so that `i + 3` does not wrap. -/
def is_keyframe (bits : List UInt8) : Bool := is_keyframe_loop bits 0

/-- `while (end > start && bits[end-1] == 0) --end`. -/
def trim_zeros (bits : List UInt8) (start : Nat) : Nat → Nat
  | 0 => 0
  | stop + 1 => if start < stop + 1 ∧ bits[stop]? = some 0 then trim_zeros bits start stop else stop + 1

/-- The trimmed end stays between the start and the end, also of a NAL unit that is
    all zeros. -/
theorem trim_zeros_bounds (bits : List UInt8) {start stop : Nat} (hle : start ≤ stop) :
    start ≤ trim_zeros bits start stop ∧ trim_zeros bits start stop ≤ stop := by
  induction stop with
  | zero => exact ⟨hle, Nat.le_refl _⟩
  | succ stop ih =>
    unfold trim_zeros
    split
    · rename_i hzero
      obtain ⟨hstart, hstop⟩ := ih (Nat.le_of_lt_succ hzero.1)
      exact ⟨hstart, hstop.trans (Nat.le_succ stop)⟩
    · exact ⟨hle, Nat.le_refl _⟩

/-- The variables of `largest_nal` across its loop. -/
structure LargestNal where
  start : Nat
  largest : Nat
  in_nal : Bool
deriving DecidableEq, Repr

/-- The loop of `largest_nal` from index `i` on. -/
def largest_nal_loop (bits : List UInt8) (i : Nat) (s : LargestNal) : LargestNal :=
  if h : i + 2 < bits.length then
    if bits[i] = 0 ∧ bits[i + 1] = 0 ∧ bits[i + 2] = 1 then
      -- A four-byte start code's leading zero is not payload.
      let size := trim_zeros bits s.start i - s.start
      let largest := if s.in_nal = true ∧ s.largest < size then size else s.largest
      largest_nal_loop bits (i + 2 + 1) { start := i + 3, largest, in_nal := true }
    else largest_nal_loop bits (i + 1) s
  else s
termination_by bits.length - i

/-- What the loops look for at `i`. -/
theorem start_code_iff {bits : List UInt8} {i : Nat} (h : i + 2 < bits.length) :
    (bits[i]? = some 0 ∧ bits[i + 1]? = some 0 ∧ bits[i + 2]? = some 1) ↔
      bits[i] = 0 ∧ bits[i + 1] = 0 ∧ bits[i + 2] = 1 := by
  simp only [List.getElem?_eq_getElem h, List.getElem?_eq_getElem (show i + 1 < bits.length by omega),
    List.getElem?_eq_getElem (show i < bits.length by omega), Option.some.injEq]

theorem largest_nal_loop_of_end {bits : List UInt8} {i : Nat} (hend : ¬ i + 2 < bits.length) (s : LargestNal) :
    largest_nal_loop bits i s = s := by
  unfold largest_nal_loop
  rw [dif_neg hend]

/-- Where there is no start code, the loop goes on with the next byte. -/
theorem largest_nal_loop_skip {bits : List UInt8} {i : Nat} (h : i + 2 < bits.length)
    (hcode : ¬ (bits[i] = 0 ∧ bits[i + 1] = 0 ∧ bits[i + 2] = 1)) (s : LargestNal) :
    largest_nal_loop bits i s = largest_nal_loop bits (i + 1) s := by
  rw [largest_nal_loop, dif_pos h, if_neg hcode]

/-- Size of the largest NAL unit in an Annex-B access unit, start codes
    excluded. -/
def largest_nal (bits : List UInt8) : Nat :=
  let s := largest_nal_loop bits 0 { start := 0, largest := 0, in_nal := false }
  if s.in_nal = true ∧ s.largest < bits.length - s.start then bits.length - s.start else s.largest

end pjsua_rust.video_passthrough
