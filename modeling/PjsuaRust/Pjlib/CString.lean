import PjsuaRust.Pjlib.Printf

namespace pjsua_rust

/-- The bytes of a buffer after `pj_ansi_snprintf` into it: the text, cut short to
    leave room, then a NUL. What lies behind it stays. -/
def snprintf_into (buf text : List UInt8) : List UInt8 :=
  let text := text.take (buf.length - 1)
  if buf.isEmpty then [] else text ++ 0 :: buf.drop (text.length + 1)

/-- `strlen`: the bytes before the first NUL. -/
def strlen (buf : List UInt8) : Nat := (buf.takeWhile (· != 0)).length

/-- Text that fits is written whole, with a null byte behind it, and the rest of the
    buffer stays. -/
theorem snprintf_into_of_lt {buf text : List UInt8} (hfits : text.length < buf.length) :
    snprintf_into buf text = text ++ 0 :: buf.drop (text.length + 1) := by
  have hne : buf.isEmpty = false := List.isEmpty_eq_false_iff.mpr (List.ne_nil_of_length_pos (by omega))
  rw [snprintf_into, hne, List.take_of_length_le (by omega)]
  rfl

theorem length_snprintf_into {buf text : List UInt8} (hfits : text.length < buf.length) :
    (snprintf_into buf text).length = buf.length := by
  rw [snprintf_into_of_lt hfits]
  simp only [List.length_append, List.length_cons, List.length_drop]
  omega

/-- Text without a null byte is read back up to the first one. -/
theorem takeWhile_append_nul {text : List UInt8} (htext : 0 ∉ text) (tail : List UInt8) :
    (text ++ 0 :: tail).takeWhile (· != 0) = text := by
  have hall : ∀ b ∈ text, (b != 0) = true := fun b hb => bne_iff_ne.mpr fun h => htext (h ▸ hb)
  rw [List.takeWhile_append_of_pos hall, List.takeWhile_cons_of_neg (by simp), List.append_nil]

theorem strlen_append_nul {text : List UInt8} (htext : 0 ∉ text) (tail : List UInt8) :
    strlen (text ++ 0 :: tail) = text.length := by
  rw [strlen, takeWhile_append_nul htext]

/-- A terminated text reads as another one exactly if it starts with it. So a
    pointer into a string that was overwritten still gives the old value if the new
    one only adds to it. -/
theorem take_append_nul_eq_iff {text old : List UInt8} (hold : 0 ∉ old) (tail : List UInt8) :
    (text ++ 0 :: tail).take old.length = old ↔ old <+: text := by
  constructor
  · intro htake
    rcases Nat.lt_or_ge text.length old.length with hlt | hle
    · -- Then the NUL is among the bytes read.
      have hzero : (0 : UInt8) ∈ (text ++ 0 :: tail).take old.length := by
        rw [List.take_append, List.mem_append, List.take_cons (by omega)]
        exact .inr List.mem_cons_self
      rw [htake] at hzero
      exact absurd hzero hold
    · rw [List.take_append_of_le_length hle] at htake
      exact htake ▸ List.take_prefix _ _
  · rintro ⟨more, rfl⟩
    rw [List.append_assoc, List.take_left]

theorem zero_notMem_fmt_u (n : Nat) : (0 : UInt8) ∉ fmt_u n := by
  intro hzero
  obtain ⟨c, hc, hbyte⟩ := List.mem_map.mp hzero
  have hdigit := Char.isDigit_iff_toNat.mp (Nat.isDigit_of_mem_toDigits (by decide) (by decide) hc)
  have hlo : 48 ≤ c.toNat := hdigit.1
  have hhi : c.toNat ≤ 57 := hdigit.2
  have hnat := congrArg UInt8.toNat hbyte
  rw [UInt8.toNat_ofNat_of_lt' (show c.toNat < 256 by omega)] at hnat
  have hzero : c.toNat = 0 := hnat
  omega

/-- A number below a power of ten has no more digits than that. -/
theorem length_fmt_u_le {n digits : Nat} (hdigits : 0 < digits) (hn : n < 10 ^ digits) :
    (fmt_u n).length ≤ digits := by
  rw [fmt_u, List.length_map]
  exact Nat.toDigits_length 10 n digits hdigits hn

theorem zero_notMem_fmt_02x (b : UInt8) : (0 : UInt8) ∉ fmt_02x b := by
  have hdigit : ∀ d < 16, UInt8.ofNat d.digitChar.toNat ≠ 0 := by decide
  have hb : b.toNat < 256 := b.toNat_lt
  intro hzero
  obtain ⟨d, hd, hbyte⟩ := List.mem_map.mp hzero
  have hd16 : d < 16 := by
    rcases List.mem_pair.mp hd with rfl | rfl <;> omega
  exact hdigit d hd16 hbyte

end pjsua_rust
