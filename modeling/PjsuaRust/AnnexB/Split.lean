import PjsuaRust.AnnexB.StartCode

namespace annexb

/-- Where start codes stand, from `i` on. -/
def start_codes (bits : List UInt8) (i : Nat) : List Nat :=
  (List.range' i (bits.length - i)).filter (StartCode bits ·)

/-- A NAL unit without the zero bytes it ends with. -/
def strip (unit : List UInt8) : List UInt8 := unit.rdropWhile (· == 0)

/-- The NAL units behind the start codes at these places, each up to the next of
    them. Only the last one keeps the zero bytes it ends with. -/
def units_at (bits : List UInt8) : List Nat → List (List UInt8)
  | [] => []
  | [p] => [bits.drop (p + 3)]
  | p :: q :: ps => strip ((bits.take q).drop (p + 3)) :: units_at bits (q :: ps)

/-- The bytes cut at every start code, those before the first left out. -/
def nal_units (bits : List UInt8) : List (List UInt8) := units_at bits (start_codes bits 0)

/-- The size of the largest of the NAL units, 0 if there is none. -/
def largest_size (units : List (List UInt8)) : Nat := (units.map List.length).foldr max 0

/-- The NAL unit is an IDR slice or an SPS: a decoder can start there. -/
def Refreshes (unit : List UInt8) : Prop := ∃ b ∈ unit.head?, b &&& 0x1F = 5 ∨ b &&& 0x1F = 7

instance (unit : List UInt8) : Decidable (Refreshes unit) :=
  match unit with
  | [] => .isFalse (fun ⟨_, hb, _⟩ => absurd hb (by simp))
  | b :: _ => decidable_of_iff (b &&& 0x1F = 5 ∨ b &&& 0x1F = 7) (by simp [Refreshes])

variable {bits : List UInt8} {i p : Nat}

/-- A start code has three bytes, so none begins in the last two. -/
theorem start_codes_of_end (hend : ¬ i + 2 < bits.length) : start_codes bits i = [] := by
  rw [start_codes, List.filter_eq_nil_iff]
  intro p hp hcode
  have hlt := (decide_eq_true_iff.mp hcode).lt_length
  rw [List.mem_range'_1] at hp
  omega

/-- A place without a start code can be left out. -/
theorem start_codes_skip (hcode : ¬ StartCode bits i) : start_codes bits i = start_codes bits (i + 1) := by
  by_cases hlt : i < bits.length
  · rw [start_codes, show bits.length - i = bits.length - (i + 1) + 1 by omega, List.range'_succ,
      List.filter_cons_of_neg (by simpa using hcode), start_codes]
  · rw [start_codes_of_end (by omega), start_codes_of_end (by omega)]

/-- Behind a start code the next one can be looked for three bytes on. -/
theorem start_codes_code (hcode : StartCode bits i) : start_codes bits i = i :: start_codes bits (i + 3) := by
  have hlt := hcode.lt_length
  have hone : ¬ StartCode bits (i + 1) := fun h => absurd (hcode.apart h (by omega)) (by omega)
  have htwo : ¬ StartCode bits (i + 1 + 1) := fun h => absurd (hcode.apart h (by omega)) (by omega)
  rw [start_codes, show bits.length - i = bits.length - (i + 1) + 1 by omega, List.range'_succ,
    List.filter_cons_of_pos (by simpa using hcode), ← start_codes, start_codes_skip hone, start_codes_skip htwo]

/-- The first one of a list of start codes is one, and within reach of the search. -/
theorem le_of_start_codes {q : Nat} {ps : List Nat} (hcodes : start_codes bits i = q :: ps) :
    i ≤ q ∧ StartCode bits q := by
  have hmem : q ∈ start_codes bits i := hcodes ▸ List.mem_cons_self
  rw [start_codes, List.mem_filter, List.mem_range'_1, decide_eq_true_iff] at hmem
  exact ⟨hmem.1.1, hmem.2⟩

@[simp] theorem largest_size_cons (unit : List UInt8) (units : List (List UInt8)) :
    largest_size (unit :: units) = max unit.length (largest_size units) := rfl

/-- The first byte of a NAL unit decides, so more bytes at its end change nothing. -/
theorem Refreshes.mono {unit more : List UInt8} (hmore : unit <+: more) (h : Refreshes unit) : Refreshes more := by
  obtain ⟨rest, rfl⟩ := hmore
  obtain ⟨b, hb, htype⟩ := h
  cases unit with
  | nil => cases hb
  | cons c unit => exact ⟨b, hb, htype⟩

/-- A NAL unit that a decoder can start at does not begin with a zero byte, so it
    keeps its beginning when it is stripped. -/
theorem refreshes_strip (unit : List UInt8) : Refreshes (strip unit) ↔ Refreshes unit := by
  have hkept : strip unit <+: unit := List.rdropWhile_prefix _ _
  constructor
  · exact Refreshes.mono hkept
  · rintro ⟨b, hb, htype⟩
    have hne : b ≠ 0 := by
      rintro rfl
      revert htype
      decide
    cases unit with
    | nil => cases hb
    | cons c rest =>
      cases hb
      cases hstrip : strip (b :: rest) with
      | nil =>
        have hall := List.rdropWhile_eq_nil_iff.mp hstrip
        exact absurd (beq_iff_eq.mp (hall b List.mem_cons_self)) hne
      | cons c kept =>
        rw [hstrip] at hkept
        exact ⟨b, by rw [(List.cons_prefix_cons.mp hkept).1]; rfl, htype⟩

/-- The NAL unit behind a start code: whether a decoder can start there shows in
    the byte right behind the start code, whatever follows. -/
theorem units_at_code (bits : List UInt8) (p : Nat) :
    ∃ unit, units_at bits (p :: start_codes bits (p + 3)) = unit :: units_at bits (start_codes bits (p + 3)) ∧
      (Refreshes unit ↔ ∃ b ∈ bits[p + 3]?, b &&& 0x1F = 5 ∨ b &&& 0x1F = 7) := by
  cases hcodes : start_codes bits (p + 3) with
  | nil =>
    refine ⟨bits.drop (p + 3), rfl, ?_⟩
    rw [Refreshes, List.head?_drop]
  | cons q ps =>
    obtain ⟨hle, hq⟩ := le_of_start_codes hcodes
    refine ⟨strip ((bits.take q).drop (p + 3)), rfl, ?_⟩
    rw [refreshes_strip, Refreshes, List.head?_drop]
    rcases Nat.lt_or_eq_of_le hle with hlt | rfl
    · rw [List.getElem?_take_of_lt hlt]
    · -- The next start code follows at once: the NAL unit is empty, and the byte is a zero.
      rw [List.getElem?_take_eq_none (Nat.le_refl _), hq.1]
      simp

end annexb
