import PjsuaRust.AnnexB.Split
import PjsuaRust.Passthrough.AnnexB

open annexb

namespace pjsua_rust.video_passthrough

section

variable {bits : List UInt8} {i p start stop : Nat}

/-- What is left of a NAL unit when the zero bytes in front of the next start code
    are trimmed. -/
theorem trim_zeros_strip (hle : start ≤ stop) (hstop : stop ≤ bits.length) :
    trim_zeros bits start stop - start = (strip ((bits.take stop).drop start)).length := by
  induction stop with
  | zero =>
    obtain rfl := Nat.le_zero.mp hle
    rfl
  | succ stop ih =>
    unfold trim_zeros
    rcases Nat.lt_or_eq_of_le hle with hlt | rfl
    · have htake : (bits.take (stop + 1)).drop start = (bits.take stop).drop start ++ [bits[stop]] := by
        rw [List.take_succ_eq_append_getElem hstop, List.drop_append_of_le_length]
        rw [List.length_take]
        omega
      have hget : bits[stop]? = some bits[stop] := List.getElem?_eq_getElem hstop
      rw [htake, strip, List.rdropWhile_concat]
      by_cases hzero : bits[stop] = 0
      · rw [if_pos ⟨hlt, hget.trans (congrArg some hzero)⟩, if_pos (beq_iff_eq.mpr hzero)]
        exact ih (by omega) (by omega)
      · rw [if_neg (fun h => hzero (Option.some.inj (hget.symm.trans h.2))), if_neg (fun h => hzero (beq_iff_eq.mp h)),
          List.length_append, List.length_drop, List.length_take, List.length_singleton]
        omega
    · have hnil : (bits.take (stop + 1)).drop (stop + 1) = [] := by
        rw [List.drop_eq_nil_iff, List.length_take]
        omega
      rw [hnil, if_neg (fun h => absurd h.1 (Nat.lt_irrefl _))]
      simp [strip]

/-- The end of `largest_nal`: the last NAL unit goes to the end of the bytes. -/
def LargestNal.final (s : LargestNal) (length : Nat) : Nat :=
  if s.in_nal = true ∧ s.largest < length - s.start then length - s.start else s.largest

/-- In a NAL unit, the loop goes on to the largest of the sizes so far and those of
    the NAL units from this one on. -/
theorem largest_nal_loop_in_nal (s : LargestNal) (hin_nal : s.in_nal = true) :
    ∀ p, s.start = p + 3 → p + 3 ≤ i →
      (largest_nal_loop bits i s).final bits.length =
        max s.largest (largest_size (units_at bits (p :: start_codes bits i))) := by
  fun_induction largest_nal_loop bits i s with
  | case1 i s hlt hcode size largest ih =>
    have hcode' : StartCode bits i := (start_code_iff hlt).mpr hcode
    intro p hstart hle
    have hsize : size = (strip ((bits.take i).drop (p + 3))).length := by
      rw [← trim_zeros_strip hle (by omega), ← hstart]
    have hlargest : largest = max s.largest size := by
      simp only [largest, hin_nal, true_and]
      split <;> omega
    rw [ih rfl i rfl (Nat.le_refl _), start_codes_code hcode', units_at, largest_size_cons, ← hsize, ← Nat.max_assoc,
      ← hlargest]
  | case2 i s hlt hcode ih =>
    intro p hstart hle
    rw [ih hin_nal p hstart (by omega), start_codes_skip fun h => hcode ((start_code_iff hlt).mp h)]
  | case3 i s hlt =>
    intro p hstart hle
    rw [start_codes_of_end hlt, LargestNal.final, hin_nal, hstart]
    simp only [units_at, largest_size, List.map_cons, List.map_nil, List.foldr_cons, List.foldr_nil,
      List.length_drop, true_and]
    split <;> omega

/-- Before the first start code the loop just looks for it. Bytes in front of it
    belong to no NAL unit and count for nothing. -/
theorem largest_nal_loop_before (s : LargestNal) (hin_nal : s.in_nal = false) :
    (largest_nal_loop bits i s).final bits.length =
      max s.largest (largest_size (units_at bits (start_codes bits i))) := by
  fun_induction largest_nal_loop bits i s with
  | case1 i s hlt hcode size largest ih =>
    have hcode' : StartCode bits i := (start_code_iff hlt).mpr hcode
    have hsame : largest = s.largest :=
      dif_neg fun h => absurd (hin_nal.symm.trans h.1) Bool.false_ne_true
    rw [largest_nal_loop_in_nal _ rfl i rfl (Nat.le_refl _), start_codes_code hcode', hsame]
  | case2 i s hlt hcode ih =>
    rw [ih hin_nal, start_codes_skip fun h => hcode ((start_code_iff hlt).mp h)]
  | case3 i s hlt =>
    rw [start_codes_of_end hlt, LargestNal.final, hin_nal]
    simp [units_at, largest_size]

/-- The model's scanner finds the size of the largest NAL unit. -/
theorem largest_nal_eq (bits : List UInt8) : largest_nal bits = largest_size (nal_units bits) := by
  calc
    largest_nal bits = (largest_nal_loop bits 0 ⟨0, 0, false⟩).final bits.length := rfl
    _ = max 0 (largest_size (nal_units bits)) := largest_nal_loop_before ⟨0, 0, false⟩ rfl
    _ = largest_size (nal_units bits) := Nat.zero_max _

/-- The loop of `is_keyframe` looks at the first byte of every NAL unit that has
    one. -/
theorem is_keyframe_loop_iff :
    is_keyframe_loop bits i = true ↔ ∃ unit ∈ units_at bits (start_codes bits i), Refreshes unit := by
  fun_induction is_keyframe_loop bits i with
  | case1 i hlt hcode type htype =>
    have hcode' : StartCode bits i := (start_code_iff (by omega)).mpr hcode
    obtain ⟨unit, hunits, hrefreshes⟩ := units_at_code bits i
    rw [start_codes_code hcode', hunits]
    refine iff_of_true rfl ⟨unit, List.mem_cons_self, hrefreshes.mpr ⟨bits[i + 3], ?_, htype⟩⟩
    exact List.getElem?_eq_getElem hlt
  | case2 i hlt hcode type htype ih =>
    have hcode' : StartCode bits i := (start_code_iff (by omega)).mpr hcode
    obtain ⟨unit, hunits, hrefreshes⟩ := units_at_code bits i
    have hnot : ¬ Refreshes unit := by
      rw [hrefreshes, List.getElem?_eq_getElem hlt]
      rintro ⟨b, hb, htype'⟩
      cases hb
      exact htype htype'
    rw [start_codes_code hcode', hunits, ih]
    simp only [List.mem_cons, exists_eq_or_imp, hnot, false_or]
  | case3 i hlt hcode ih =>
    rw [ih, start_codes_skip fun h => hcode ((start_code_iff (by omega)).mp h)]
  | case4 i hlt =>
    refine iff_of_false Bool.false_ne_true ?_
    by_cases hcode : StartCode bits i
    · -- A start code at the very end has an empty NAL unit.
      obtain ⟨unit, hunits, hrefreshes⟩ := units_at_code bits i
      rw [start_codes_code hcode, hunits, start_codes_of_end (by omega)]
      simp [units_at, hrefreshes, List.getElem?_eq_none (Nat.le_of_not_lt hlt)]
    · rw [start_codes_skip hcode, start_codes_of_end (by omega)]
      simp [units_at]

/-- The model's scanner tells whether a decoder can start at one of the NAL units. -/
theorem is_keyframe_iff (bits : List UInt8) :
    is_keyframe bits = true ↔ ∃ unit ∈ nal_units bits, Refreshes unit :=
  is_keyframe_loop_iff

end

/-- Why a run of a loop gives no value: it reads outside the bytes, or is not over
    after so many rounds. -/
inductive Abort where
  | out_of_bounds
  | out_of_fuel
deriving DecidableEq, Repr

namespace wrapping

/-- `bits[i]`. -/
def read (bits : List UInt8) (i : UInt32) : Except Abort UInt8 :=
  match bits[i.toNat]? with
  | some b => .ok b
  | none => .error .out_of_bounds

/-- `bits[i] == 0 && bits[i+1] == 0 && bits[i+2] == 1`. -/
def at_start_code (bits : List UInt8) (i : UInt32) : Except Abort Bool := do
  if (← read bits i) ≠ 0 then return false
  if (← read bits (i + 1)) ≠ 0 then return false
  return (← read bits (i + 2)) == 1

/-- The loop of `is_keyframe`, on an index of 32 bits that wraps. -/
def is_keyframe_loop (bits : List UInt8) (len : UInt32) : Nat → UInt32 → Except Abort UInt32
  | 0, _ => .error .out_of_fuel
  | fuel + 1, i => do
    if i + 3 < len then
      if ← at_start_code bits i then
        let type := (← read bits (i + 3)) &&& 0x1F
        if type = 5 ∨ type = 7 then return 1
        is_keyframe_loop bits len fuel (i + 2 + 1)
      else is_keyframe_loop bits len fuel (i + 1)
    else return 0

/-- `is_keyframe`, in at most `fuel` rounds. -/
def is_keyframe (bits : List UInt8) (len : UInt32) (fuel : Nat) : Except Abort UInt32 :=
  is_keyframe_loop bits len fuel 0

/-- `while (end > start && bits[end-1] == 0) --end`, which cannot wrap. -/
def trim_zeros (bits : List UInt8) (start stop : UInt32) : Except Abort UInt32 := do
  if h : start < stop then
    if (← read bits (stop - 1)) = 0 then trim_zeros bits start (stop - 1) else return stop
  else return stop
termination_by stop.toNat
decreasing_by
  have hlt : start.toNat < stop.toNat := h
  have hone : (1 : UInt32) ≤ stop := UInt32.le_iff_toNat_le.mpr (show 1 ≤ stop.toNat by omega)
  rw [UInt32.toNat_sub_of_le _ _ hone]
  exact Nat.sub_lt (by omega) (by decide)

/-- The largest size once the NAL unit that ends at `i` is counted, if there is
    one. -/
def count_nal (bits : List UInt8) (start i largest : UInt32) (in_nal : Bool) : Except Abort UInt32 := do
  if in_nal then
    let stop ← trim_zeros bits start i
    if largest < stop - start then return stop - start else return largest
  else return largest

/-- The loop of `largest_nal` and what is behind it. -/
def largest_nal_loop (bits : List UInt8) (len : UInt32) :
    Nat → UInt32 → UInt32 → UInt32 → Bool → Except Abort UInt32
  | 0, _, _, _, _ => .error .out_of_fuel
  | fuel + 1, i, start, largest, in_nal => do
    if i + 2 < len then
      if ← at_start_code bits i then
        let largest ← count_nal bits start i largest in_nal
        largest_nal_loop bits len fuel (i + 2 + 1) (i + 3) largest true
      else largest_nal_loop bits len fuel (i + 1) start largest in_nal
    else if in_nal ∧ largest < len - start then return len - start
    else return largest

/-- `largest_nal`, in at most `fuel` rounds. -/
def largest_nal (bits : List UInt8) (len : UInt32) (fuel : Nat) : Except Abort UInt32 :=
  largest_nal_loop bits len fuel 0 0 0 false

variable {bits : List UInt8}

theorem toNat_add {i k : UInt32} (hsum : i.toNat + k.toNat < 2 ^ 32) : (i + k).toNat = i.toNat + k.toNat := by
  rw [UInt32.toNat_add, Nat.mod_eq_of_lt hsum]

theorem read_eq {i : UInt32} {n : Nat} (hn : i.toNat = n) (hlt : n < bits.length) : read bits i = .ok bits[n] := by
  subst hn
  rw [read, List.getElem?_eq_getElem hlt]

/-- Three reads at most, all of them inside the bytes. The length is below 2 ^ 32,
    so that the index does not wrap between them. -/
theorem at_start_code_eq {i : UInt32} {n : Nat} (hn : i.toNat = n) (hlt : n + 2 < bits.length)
    (hlen : bits.length < 2 ^ 32) : at_start_code bits i = .ok (decide (StartCode bits n)) := by
  have hone : (i + 1).toNat = n + 1 := by
    rw [toNat_add, hn]
    · rfl
    · change i.toNat + 1 < 2 ^ 32
      omega
  have htwo : (i + 2).toNat = n + 2 := by
    rw [toNat_add, hn]
    · rfl
    · change i.toNat + 2 < 2 ^ 32
      omega
  have hcode : decide (StartCode bits n) = decide (bits[n] = 0 ∧ bits[n + 1] = 0 ∧ bits[n + 2] = 1) :=
    decide_eq_decide.mpr (start_code_iff hlt)
  rw [at_start_code, read_eq hn (by omega), read_eq hone (by omega), read_eq htwo hlt, hcode]
  by_cases hfirst : bits[n] = 0
  · by_cases hsecond : bits[n + 1] = 0
    · simp [hfirst, hsecond, bind, Except.bind, pure, Except.pure]
      rfl
    · simp [hfirst, hsecond, bind, Except.bind, pure, Except.pure]
  · simp [hfirst, bind, Except.bind, pure, Except.pure]

/-- While `len` is far enough from the end of the 32-bit numbers, the index of the
    loop does not wrap: each round gets closer to the end of the bytes, and reads
    only inside them. -/
theorem is_keyframe_loop_eq {len : UInt32} (hlen : len.toNat = bits.length) (hsmall : bits.length + 3 < 2 ^ 32)
    (fuel : Nat) (i : UInt32) (hi : i.toNat ≤ bits.length) (hfuel : bits.length < i.toNat + fuel) :
    is_keyframe_loop bits len fuel i =
      .ok (if video_passthrough.is_keyframe_loop bits i.toNat then 1 else 0) := by
  induction fuel generalizing i with
  | zero => omega
  | succ fuel ih =>
    have hthree : (i + 3).toNat = i.toNat + 3 := toNat_add (show i.toNat + 3 < 2 ^ 32 by omega)
    have hnext : (i + 2 + 1).toNat = i.toNat + 3 := by
      rw [show i + 2 + 1 = i + 3 by rw [UInt32.add_assoc]; rfl, hthree]
    have hskip : (i + 1).toNat = i.toNat + 1 := toNat_add (show i.toNat + 1 < 2 ^ 32 by omega)
    have hcond : i + 3 < len ↔ i.toNat + 3 < bits.length := by rw [UInt32.lt_iff_toNat_lt, hthree, hlen]
    rw [is_keyframe_loop, video_passthrough.is_keyframe_loop]
    by_cases hlt : i.toNat + 3 < bits.length
    · rw [if_pos (hcond.mpr hlt), dif_pos hlt, at_start_code_eq rfl (by omega) (by omega)]
      by_cases hcode : StartCode bits i.toNat
      · rw [if_pos ((start_code_iff (by omega)).mp hcode), decide_eq_true hcode, read_eq hthree hlt]
        have hrest := ih (i + 2 + 1) (by omega) (by omega)
        rw [hnext] at hrest
        by_cases htype : bits[i.toNat + 3] &&& 0x1F = 5 ∨ bits[i.toNat + 3] &&& 0x1F = 7
        · simp [htype, bind, Except.bind, pure, Except.pure]
        · simp only [htype, bind, Except.bind, if_false, if_true]
          exact hrest
      · have hnot := mt (start_code_iff (show i.toNat + 2 < bits.length by omega)).mpr hcode
        rw [if_neg hnot, decide_eq_false hcode]
        have hrest := ih (i + 1) (by omega) (by omega)
        rw [hskip] at hrest
        exact hrest
    · rw [if_neg (mt hcond.mp hlt), dif_neg hlt]
      rfl

/-- Trimming reads inside the bytes, and ends where it should: it goes back from the
    end of a NAL unit over zeros, and stops at its start if there is nothing else. -/
theorem trim_zeros_eq (start : UInt32) {stop : UInt32} {n : Nat} (hn : stop.toNat = n) (hle : n ≤ bits.length) :
    ∃ t, trim_zeros bits start stop = .ok t ∧ t.toNat = video_passthrough.trim_zeros bits start.toNat n := by
  induction n generalizing stop with
  | zero =>
    have hnot : ¬ start < stop := by
      rw [UInt32.lt_iff_toNat_lt]
      omega
    refine ⟨stop, ?_, hn⟩
    rw [trim_zeros, dif_neg hnot]
    rfl
  | succ n ih =>
    have hone : (stop - 1).toNat = n := by
      have hle_one : (1 : UInt32) ≤ stop := UInt32.le_iff_toNat_le.mpr (show 1 ≤ stop.toNat by omega)
      rw [UInt32.toNat_sub_of_le _ _ hle_one, hn]
      rfl
    have hcond : start < stop ↔ start.toNat < n + 1 := by rw [UInt32.lt_iff_toNat_lt, hn]
    rw [trim_zeros, video_passthrough.trim_zeros, List.getElem?_eq_getElem hle]
    by_cases hlt : start.toNat < n + 1
    · rw [dif_pos (hcond.mpr hlt), read_eq hone hle]
      by_cases hzero : bits[n] = 0
      · obtain ⟨t, hrun, ht⟩ := ih hone (Nat.le_of_succ_le hle)
        refine ⟨t, ?_, ?_⟩
        · simpa [hzero, bind, Except.bind] using hrun
        · rw [if_pos ⟨hlt, congrArg some hzero⟩]
          exact ht
      · refine ⟨stop, ?_, ?_⟩
        · simp [hzero, bind, Except.bind, pure, Except.pure]
        · rw [if_neg fun h => hzero (Option.some.inj h.2)]
          exact hn
    · refine ⟨stop, ?_, ?_⟩
      · rw [dif_neg (mt hcond.mp hlt)]
        rfl
      · rw [if_neg fun h => hlt h.1]
        exact hn

/-- Counting a NAL unit does not wrap, and does not read elsewhere, as long as it
    ends within the bytes. -/
theorem count_nal_eq (largest : UInt32) (in_nal : Bool) {start i : UInt32} (hstart : start ≤ i)
    (hi : i.toNat ≤ bits.length) :
    ∃ size, count_nal bits start i largest in_nal = .ok size ∧
      size.toNat =
        if in_nal = true ∧ largest.toNat < video_passthrough.trim_zeros bits start.toNat i.toNat - start.toNat then
          video_passthrough.trim_zeros bits start.toNat i.toNat - start.toNat
        else largest.toNat := by
  cases in_nal with
  | false => exact ⟨largest, rfl, by simp⟩
  | true =>
    obtain ⟨stop, hrun, hstop⟩ := trim_zeros_eq start rfl hi
    have hbounds := trim_zeros_bounds bits (show start.toNat ≤ i.toNat from hstart)
    have hsub : (stop - start).toNat = video_passthrough.trim_zeros bits start.toNat i.toNat - start.toNat := by
      rw [UInt32.toNat_sub_of_le _ _ (UInt32.le_iff_toNat_le.mpr (by omega)), hstop]
    rw [count_nal, hrun, ← hsub]
    by_cases hlt : largest < stop - start
    · refine ⟨stop - start, ?_, ?_⟩
      · simp [hlt, bind, Except.bind, pure, Except.pure]
      · rw [if_pos ⟨rfl, hlt⟩]
    · refine ⟨largest, ?_, ?_⟩
      · simp [hlt, bind, Except.bind, pure, Except.pure]
      · rw [if_neg (fun h => hlt h.2)]

/-- Likewise: no index wraps, no read is outside the bytes, and after at most
    `bits.length + 1` rounds the size is there. -/
theorem largest_nal_loop_eq {len : UInt32} (hlen : len.toNat = bits.length) (hsmall : bits.length + 3 < 2 ^ 32)
    (fuel : Nat) (i start largest : UInt32) (in_nal : Bool) (hi : i.toNat ≤ bits.length) (hstart : start ≤ i)
    (hfuel : bits.length < i.toNat + fuel) :
    ∃ size, largest_nal_loop bits len fuel i start largest in_nal = .ok size ∧
      size.toNat = (video_passthrough.largest_nal_loop bits i.toNat
        ⟨start.toNat, largest.toNat, in_nal⟩).final bits.length := by
  induction fuel generalizing i start largest in_nal with
  | zero => omega
  | succ fuel ih =>
    have hstart' : start.toNat ≤ i.toNat := hstart
    have htwo : (i + 2).toNat = i.toNat + 2 := toNat_add (show i.toNat + 2 < 2 ^ 32 by omega)
    have hthree : (i + 3).toNat = i.toNat + 3 := toNat_add (show i.toNat + 3 < 2 ^ 32 by omega)
    have hnext : i + 2 + 1 = i + 3 := by
      rw [UInt32.add_assoc]
      rfl
    have hskip : (i + 1).toNat = i.toNat + 1 := toNat_add (show i.toNat + 1 < 2 ^ 32 by omega)
    have hcond : i + 2 < len ↔ i.toNat + 2 < bits.length := by rw [UInt32.lt_iff_toNat_lt, htwo, hlen]
    rw [largest_nal_loop, video_passthrough.largest_nal_loop]
    by_cases hlt : i.toNat + 2 < bits.length
    · rw [if_pos (hcond.mpr hlt), dif_pos hlt, at_start_code_eq rfl hlt (by omega)]
      by_cases hcode : StartCode bits i.toNat
      · obtain ⟨counted, hcount, hcounted⟩ := count_nal_eq largest in_nal hstart hi
        obtain ⟨size, hrun, hsize⟩ := ih (i + 3) (i + 3) counted true (by omega) (UInt32.le_refl _) (by omega)
        rw [hthree, hcounted] at hsize
        rw [if_pos ((start_code_iff hlt).mp hcode), decide_eq_true hcode, hcount, hnext]
        exact ⟨size, hrun, hsize⟩
      · have hnot := mt (start_code_iff hlt).mpr hcode
        rw [if_neg hnot, decide_eq_false hcode]
        have hrest := ih (i + 1) start largest in_nal (by omega) (UInt32.le_iff_toNat_le.mpr (by omega)) (by omega)
        rw [hskip] at hrest
        exact hrest
    · have hrest : (len - start).toNat = bits.length - start.toNat := by
        rw [UInt32.toNat_sub_of_le _ _ (UInt32.le_iff_toNat_le.mpr (by omega)), hlen]
      rw [if_neg (mt hcond.mp hlt), dif_neg hlt, LargestNal.final]
      dsimp only
      rw [← hrest]
      by_cases hlast : in_nal = true ∧ largest < len - start
      · rw [if_pos hlast]
        exact ⟨_, rfl, (if_pos hlast).symm⟩
      · rw [if_neg hlast]
        exact ⟨_, rfl, (if_neg hlast).symm⟩

end wrapping

/-- Both scanners see the bytes as cut at every start code: they come to an end
    without reading elsewhere, `largest_nal` with the size of the largest NAL unit
    and `is_keyframe` with whether a decoder can start at one of them. The bytes are
    arbitrary and may have start codes anywhere or nowhere, as long as the sums of
    indices and small constants stay in 32 bits. -/
theorem scanners_split {bits : List UInt8} (hlength : bits.length < 2 ^ 32 - 3) {fuel : Nat}
    (hfuel : bits.length < fuel) :
    (∃ size, wrapping.largest_nal bits (UInt32.ofNat bits.length) fuel = .ok size ∧
      size.toNat = largest_nal bits ∧ largest_nal bits = largest_size (nal_units bits)) ∧
    wrapping.is_keyframe bits (UInt32.ofNat bits.length) fuel = .ok (if is_keyframe bits then 1 else 0) ∧
      (is_keyframe bits = true ↔ ∃ unit ∈ nal_units bits, Refreshes unit) := by
  have hlen : (UInt32.ofNat bits.length).toNat = bits.length := Nat.mod_eq_of_lt (by omega)
  obtain ⟨size, hrun, hsize⟩ := wrapping.largest_nal_loop_eq hlen (by omega) fuel 0 0 0 false (Nat.zero_le _)
    (UInt32.le_refl _) (show bits.length < 0 + fuel by omega)
  have hkeyframe := wrapping.is_keyframe_loop_eq hlen (by omega) fuel 0 (Nat.zero_le _)
    (show bits.length < 0 + fuel by omega)
  exact ⟨⟨size, hrun, hsize, largest_nal_eq bits⟩, hkeyframe, is_keyframe_iff bits⟩

/-- An SPS and an IDR slice, the second behind a zero byte of its own. -/
def two_units : List UInt8 := [9, 0, 0, 1, 0x67, 0, 0, 0, 1, 0x65, 0]

theorem scanners_split_two_units :
    nal_units two_units = [[0x67], [0x65, 0]] ∧ wrapping.largest_nal two_units 11 12 = .ok 2 ∧
      wrapping.is_keyframe two_units 11 12 = .ok 1 := by
  obtain ⟨⟨size, hrun, hsize, hlargest⟩, hkeyframe, hiff⟩ :=
    scanners_split (show two_units.length < 2 ^ 32 - 3 by decide) (show two_units.length < 12 by decide)
  have htwo : size = 2 := UInt32.toNat_inj.mp (hsize.trans (hlargest.trans (by decide)))
  have htrue : is_keyframe two_units = true := hiff.mpr (by decide)
  rw [htwo] at hrun
  rw [htrue] at hkeyframe
  exact ⟨by decide, hrun, hkeyframe⟩

end pjsua_rust.video_passthrough
