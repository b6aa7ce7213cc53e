import PjsuaRust.AnnexB.Split

namespace annexb

/-- A start code of four bytes. -/
def START : List UInt8 := [0, 0, 0, 1]

/-- NAL units as an access unit, each behind a start code of four bytes. -/
def join (units : List (List UInt8)) : List UInt8 := units.flatMap (START ++ ·)

/-- No start code stands in a NAL unit. -/
def Unmarked (unit : List UInt8) : Prop := ∀ i, ¬ StartCode unit i

/-- Every NAL unit but the last without the zero bytes it ends with. -/
def strip_init : List (List UInt8) → List (List UInt8)
  | [] => []
  | [unit] => [unit]
  | unit :: next :: rest => strip unit :: strip_init (next :: rest)

@[simp] theorem join_nil : join [] = [] := rfl

@[simp] theorem join_cons (unit : List UInt8) (units : List (List UInt8)) :
    join (unit :: units) = START ++ unit ++ join units := rfl

@[simp] theorem length_start : START.length = 4 := rfl

variable {bits front rest unit : List UInt8} {i p q : Nat}

/-- Bytes in front move a start code, and neither make one nor break one behind
    them. -/
theorem startCode_append : StartCode (front ++ rest) (front.length + i) ↔ StartCode rest i := by
  have hget (j : Nat) : (front ++ rest)[front.length + j]? = rest[j]? := by
    rw [List.getElem?_append_right (Nat.le_add_right _ _), Nat.add_sub_cancel_left]
  rw [StartCode, StartCode, Nat.add_assoc, Nat.add_assoc, hget, hget, hget]

/-- Where start codes stand behind some bytes in front: at the same places of the
    rest, moved by their number. The search begins behind the front, so that what
    the front holds does not matter. -/
theorem start_codes_append :
    start_codes (front ++ rest) (front.length + i) = (start_codes rest i).map (front.length + ·) := by
  have hrange (n : Nat) : List.range' (front.length + i) n = (List.range' i n).map (front.length + ·) := by
    rw [List.map_add_range', Nat.add_comm]
  rw [start_codes, start_codes, List.length_append, Nat.add_sub_add_left, hrange, List.filter_map]
  congr 1
  apply List.filter_congr
  intro j _
  exact decide_eq_decide.mpr startCode_append

/-- The NAL units at moved start codes are the same: a NAL unit is cut from its
    start code to the next one or the end, and what stands in front of it does not
    matter. -/
theorem units_at_append (places : List Nat) :
    units_at (front ++ rest) (places.map (front.length + ·)) = units_at rest places := by
  have hdrop (p : Nat) : (front ++ rest).drop (front.length + p + 3) = rest.drop (p + 3) := by
    rw [Nat.add_assoc, List.drop_append, List.drop_eq_nil_of_le (by omega), List.nil_append]
    congr 1
    omega
  induction places with
  | nil => rfl
  | cons p places ih =>
    cases places with
    | nil => exact congrArg (fun unit => [unit]) (hdrop p)
    | cons q places =>
      rw [List.map_cons] at ih
      rw [List.map_cons, List.map_cons, units_at, units_at, ih]
      congr 2
      rw [List.take_append, List.take_of_length_le (by omega), Nat.add_sub_cancel_left, Nat.add_assoc, List.drop_append,
        List.drop_eq_nil_of_le (by omega), List.nil_append]
      congr 1
      omega

/-- Where no start code stands for a while, the search goes on behind. -/
theorem start_codes_clear {n : Nat} (hclear : ∀ j, i ≤ j → j < i + n → ¬ StartCode bits j) :
    start_codes bits i = start_codes bits (i + n) := by
  induction n with
  | zero => rfl
  | succ n ih =>
    rw [ih fun j hle hlt => hclear j hle (by omega), start_codes_skip (hclear (i + n) (by omega) (by omega))]
    rfl

/-- What stands behind a NAL unit: nothing, or a start code of four bytes. -/
def Ends (rest : List UInt8) : Prop := rest = [] ∨ ∃ more, rest = START ++ more

/-- What is put together of NAL units begins with a start code, if with anything. -/
theorem ends_join (units : List (List UInt8)) : Ends (join units) := by
  cases units with
  | nil => exact .inl rfl
  | cons unit units => exact .inr ⟨unit ++ join units, by rw [join_cons, List.append_assoc]⟩

/-- In a NAL unit and across its end no start code begins, as long as the NAL unit
    holds none and what comes behind it is nothing or begins with a start code of
    four bytes. -/
theorem not_startCode_of_ends (hunit : Unmarked unit) (hrest : Ends rest) (hlt : i < unit.length) :
    ¬ StartCode (unit ++ rest) i := by
  rintro ⟨hzero, hzero', hone⟩
  by_cases hin : i + 2 < unit.length
  · rw [List.getElem?_append_left (by omega)] at hzero hzero' hone
    exact hunit i ⟨hzero, hzero', hone⟩
  · rw [List.getElem?_append_right (by omega)] at hone
    rcases hrest with rfl | ⟨more, rfl⟩
    · cases hone
    · have hplace : i + 2 - unit.length = 0 ∨ i + 2 - unit.length = 1 := by omega
      rcases hplace with hplace | hplace <;> rw [hplace] at hone <;> cases hone

/-- Where start codes stand in an access unit that begins with one: at the first of
    the two zeros in front of the 1, and then where they stand in the rest. The NAL
    unit behind the first must hold none, and must not run into the rest. -/
theorem start_codes_start (hunit : Unmarked unit) (hrest : Ends rest) :
    start_codes (START ++ unit ++ rest) 0 = 1 :: (start_codes rest 0).map ((START ++ unit).length + ·) := by
  have hfirst : ¬ StartCode (START ++ unit ++ rest) 0 := by
    rintro ⟨-, -, hone⟩
    cases hone
  have hcode : StartCode (START ++ unit ++ rest) 1 := ⟨rfl, rfl, rfl⟩
  rw [start_codes_skip hfirst, start_codes_code hcode]
  congr 1
  rw [List.append_assoc]
  have hclear : ∀ j, 1 + 3 ≤ j → j < 1 + 3 + unit.length → ¬ StartCode (START ++ (unit ++ rest)) j := by
    intro j hle hlt
    obtain ⟨k, rfl⟩ := Nat.exists_eq_add_of_le hle
    rw [show 1 + 3 + k = START.length + k from rfl, startCode_append]
    exact not_startCode_of_ends hunit hrest (by omega)
  rw [start_codes_clear hclear, ← List.append_assoc]
  have hlength : 1 + 3 + unit.length = (START ++ unit).length + 0 := by
    rw [List.length_append, length_start]
    omega
  rw [hlength, start_codes_append]

/-- The NAL units of an access unit that was put together of NAL units: the same,
    but for zero bytes that they end with. -/
theorem nal_units_join {units : List (List UInt8)} (hunits : ∀ unit ∈ units, Unmarked unit) :
    nal_units (join units) = strip_init units := by
  induction units with
  | nil => rfl
  | cons unit units ih =>
    have hunit := hunits unit List.mem_cons_self
    have hrest := ih fun u hu => hunits u (List.mem_cons_of_mem _ hu)
    rw [nal_units, join_cons, start_codes_start hunit (ends_join units)]
    cases units with
    | nil =>
      rw [join_nil, start_codes_of_end (by simp), List.append_nil]
      rfl
    | cons next units =>
      rw [strip_init, ← hrest, nal_units]
      obtain ⟨places, hplaces⟩ : ∃ places, start_codes (join (next :: units)) 0 = 1 :: places := by
        rw [join_cons]
        exact ⟨_, start_codes_start (hunits next (List.mem_cons_of_mem _ List.mem_cons_self)) (ends_join units)⟩
      rw [hplaces, List.map_cons, units_at, ← List.map_cons (f := ((START ++ unit).length + ·)), units_at_append]
      congr 1
      -- The unit is cut before the last three bytes of the next start code.
      have hcut : ((START ++ unit ++ join (next :: units)).take ((START ++ unit).length + 1)).drop (1 + 3) =
          unit ++ [0] := by
        rw [join_cons, List.take_length_add_append]
        rfl
      rw [hcut, strip, strip, List.rdropWhile_concat_pos _ _ _ (by rfl)]

/-- The next start code is the first of those from there on, and the others follow
    three bytes behind it. So a search that goes from one to the next finds them
    all. -/
theorem start_codes_eq (bits : List UInt8) (i : Nat) :
    start_codes bits i = match next_start_code bits i with
      | some p => p :: start_codes bits (p + 3)
      | none => [] := by
  fun_induction next_start_code bits i with
  | case1 i hlt hcode => exact start_codes_code hcode
  | case2 i hlt hcode ih => rw [start_codes_skip hcode, ih]
  | case3 i hlt => exact start_codes_of_end hlt

/-- Bytes in which no start code stands whole. -/
theorem unmarked_slice (hclear : ∀ j, i ≤ j → j + 2 < q → ¬ StartCode bits j) : Unmarked ((bits.take q).drop i) := by
  rintro j ⟨hzero, hzero', hone⟩
  rw [List.getElem?_drop] at hzero hzero' hone
  have hlt := (List.getElem?_eq_some_iff.mp hone).1
  rw [List.length_take] at hlt
  rw [List.getElem?_take_of_lt (by omega)] at hzero hzero' hone
  exact hclear (i + j) (Nat.le_add_right i j) (by omega) ⟨hzero, hzero', hone⟩

/-- No start code stands between one and the next. -/
theorem not_startCode_of_next (hnext : next_start_code bits i = some q) {j : Nat} (hle : i ≤ j) (hlt : j < q) :
    ¬ StartCode bits j := by
  intro hcode
  obtain ⟨r, hr, hr'⟩ := next_start_code_le hcode hle
  cases hnext.symm.trans hr
  omega

/-- Where the search finds nothing, there is no start code any more. -/
theorem not_startCode_of_none (hnone : next_start_code bits i = none) {j : Nat} (hle : i ≤ j) : ¬ StartCode bits j := by
  intro hcode
  obtain ⟨r, hr, -⟩ := next_start_code_le hcode hle
  rw [hnone] at hr
  cases hr

/-- The bytes behind a start code, up to the next one or to the end. -/
theorem unmarked_to_stop (i : Nat) : Unmarked ((bits.take (unit_stop bits i)).drop i) := by
  apply unmarked_slice
  intro j hle hlt
  unfold unit_stop at hlt
  split at hlt
  · rename_i q hq
    have hend : unit_end bits q ≤ q := unit_end_le
    exact not_startCode_of_next hq hle (by omega)
  · rename_i hnone
    exact not_startCode_of_none hnone hle

/-- The bytes behind the start code at `p`, up to the next one, but for a zero byte
    in front of that. -/
def cut (bits : List UInt8) (p : Nat) : List UInt8 := (bits.take (unit_stop bits (p + 3))).drop (p + 3)

/-- The cut at a start code that is not the last differs from the NAL unit there
    by at most the zero bytes it ends with. -/
theorem strip_cut (hnext : next_start_code bits (p + 3) = some q) :
    strip (cut bits p) = strip ((bits.take q).drop (p + 3)) := by
  obtain ⟨hle, hq⟩ := next_start_code_some hnext
  have hlt := hq.lt_length
  rw [cut, unit_stop, hnext]
  dsimp only
  unfold unit_end
  split
  · rename_i hzero
    rcases Nat.lt_or_eq_of_le hle with hlt' | rfl
    · have hlast : (bits.take q).drop (p + 3) = (bits.take (q - 1)).drop (p + 3) ++ [0] := by
        obtain ⟨r, rfl⟩ : ∃ r, q = r + 1 := ⟨q - 1, by omega⟩
        rw [Nat.add_sub_cancel] at hzero ⊢
        rw [List.take_add_one, hzero, List.drop_append_of_le_length]
        · rfl
        · rw [List.length_take]
          omega
      rw [hlast, strip, strip, List.rdropWhile_concat_pos _ _ _ (by rfl)]
    · rw [List.drop_eq_nil_of_le (by rw [List.length_take]; omega), List.drop_eq_nil_of_le (by rw [List.length_take]; omega)]
  · rfl

theorem strip_init_cuts (bits : List UInt8) (i : Nat) :
    strip_init ((start_codes bits i).map (cut bits)) = units_at bits (start_codes bits i) := by
  generalize hcodes : start_codes bits i = places
  induction places generalizing i with
  | nil => rfl
  | cons p places ih =>
    rw [start_codes_eq] at hcodes
    split at hcodes
    · rename_i r hnext
      cases hcodes
      have hrest := ih (p + 3) rfl
      have hafter := start_codes_eq bits (p + 3)
      cases hnext' : next_start_code bits (p + 3) with
      | none =>
        rw [hnext'] at hafter
        rw [hafter, List.map_cons, List.map_nil, strip_init, units_at, cut, unit_stop, hnext', List.take_length]
      | some q =>
        rw [hnext'] at hafter
        rw [hafter, List.map_cons] at hrest
        rw [hafter, List.map_cons, List.map_cons, strip_init, units_at, hrest, strip_cut hnext']
    · cases hcodes

/-- What is cut at the start codes and put together again has the same NAL
    units. -/
theorem nal_units_join_cuts (bits : List UInt8) :
    nal_units (join ((start_codes bits 0).map (cut bits))) = nal_units bits := by
  rw [nal_units_join, strip_init_cuts, nal_units]
  intro unit hunit
  obtain ⟨p, -, rfl⟩ := List.mem_map.mp hunit
  exact unmarked_to_stop (p + 3)

theorem startCode_of_mem (hmem : p ∈ start_codes bits i) : StartCode bits p :=
  of_decide_eq_true (List.mem_filter.mp hmem).2

theorem length_units_at (bits : List UInt8) (places : List Nat) : (units_at bits places).length = places.length := by
  induction places with
  | nil => rfl
  | cons p places ih =>
    cases places with
    | nil => rfl
    | cons q places =>
      rw [units_at, List.length_cons, ih]
      rfl

end annexb
