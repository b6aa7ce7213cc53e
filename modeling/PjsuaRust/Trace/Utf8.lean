import PjsuaRust.Trace.Text

namespace pjsua_rust.event

/-- The bytes of a text. -/
def encode (s : List Char) : List UInt8 := s.flatMap String.utf8EncodeChar

@[simp]
theorem encode_cons (c : Char) (s : List Char) : encode (c :: s) = String.utf8EncodeChar c ++ encode s :=
  List.flatMap_cons

@[simp]
theorem encode_append (s t : List Char) : encode (s ++ t) = encode s ++ encode t :=
  List.flatMap_append

theorem toNat_ofNat {n : Nat} (hn : n < 256) : (UInt8.ofNat n).toNat = n :=
  UInt8.toNat_ofNat_of_lt' hn

theorem is_cont_of_toNat {b : UInt8} (hlo : 0x80 ≤ b.toNat) (hhi : b.toNat ≤ 0xbf) : is_cont b = true := by
  have hmask : ∀ n < 256, 0x80 ≤ n → n ≤ 0xbf → n &&& 0xc0 = 0x80 := by decide +kernel
  rw [is_cont, beq_iff_eq, ← UInt8.toNat_inj, UInt8.toNat_and]
  exact hmask b.toNat b.toNat_lt hlo hhi

theorem toNat_low (b : UInt8) : (b &&& 0x3f).toNat = b.toNat % 64 := by
  rw [UInt8.toNat_and]
  exact Nat.and_two_pow_sub_one_eq_mod b.toNat 6

theorem utf8_char_width_one {b : UInt8} (hb : b.toNat < 0x80) : utf8_char_width b = 1 :=
  if_pos (UInt8.lt_iff_toNat_lt.mpr hb)

/-- The first byte of a character tells how many bytes it has. -/
theorem utf8_char_width_two {b : UInt8} (hlo : 0xc2 ≤ b.toNat) (hhi : b.toNat ≤ 0xdf) :
    utf8_char_width b = 2 := by
  simp only [utf8_char_width, UInt8.lt_iff_toNat_lt, UInt8.le_iff_toNat_le, UInt8.reduceToNat]
  rw [if_neg (by omega), if_pos ⟨hlo, hhi⟩]

theorem utf8_char_width_three {b : UInt8} (hlo : 0xe0 ≤ b.toNat) (hhi : b.toNat ≤ 0xef) :
    utf8_char_width b = 3 := by
  simp only [utf8_char_width, UInt8.lt_iff_toNat_lt, UInt8.le_iff_toNat_le, UInt8.reduceToNat]
  rw [if_neg (by omega), if_neg (by omega), if_pos ⟨hlo, hhi⟩]

theorem utf8_char_width_four {b : UInt8} (hlo : 0xf0 ≤ b.toNat) (hhi : b.toNat ≤ 0xf4) :
    utf8_char_width b = 4 := by
  simp only [utf8_char_width, UInt8.lt_iff_toNat_lt, UInt8.le_iff_toNat_le, UInt8.reduceToNat]
  rw [if_neg (by omega), if_neg (by omega), if_neg (by omega), if_pos ⟨hlo, hhi⟩]

/-- A continuation byte may come second, unless the first byte asks for more: some
    first bytes leave only part of the range, which is what keeps surrogates and
    overlong forms out. -/
theorem second_ok_of_toNat {first second : UInt8} (hlo : 0x80 ≤ second.toNat) (hhi : second.toNat ≤ 0xbf)
    (he0 : first.toNat = 0xe0 → 0xa0 ≤ second.toNat) (hed : first.toNat = 0xed → second.toNat ≤ 0x9f)
    (hf0 : first.toNat = 0xf0 → 0x90 ≤ second.toNat) (hf4 : first.toNat = 0xf4 → second.toNat ≤ 0x8f) :
    second_ok first second = true := by
  simp only [second_ok, is_cont_of_toNat hlo hhi, ← UInt8.toNat_inj, UInt8.le_iff_toNat_le, UInt8.reduceToNat]
  split
  · simp only [decide_eq_true_eq]
    omega
  · split
    · simp only [decide_eq_true_eq]
      omega
    · split
      · simp only [decide_eq_true_eq]
        omega
      · split
        · simp only [decide_eq_true_eq]
          omega
        · rfl

/-- A character is no surrogate, and not above the last code point. -/
theorem not_surrogate (c : Char) : c.toNat < 0xd800 ∨ 0xe000 ≤ c.toNat ∧ c.toNat < 0x110000 := by
  rcases c.valid with h | h
  · exact .inl h
  · exact .inr ⟨Nat.succ_le_of_lt h.1, h.2⟩

theorem next_char_one {b : UInt8} (rest : List UInt8) (hb : b.toNat < 0x80) :
    next_char b rest = (0, Char.ofNat b.toNat) := by
  simp only [next_char, utf8_char_width_one hb]

/-- Two bytes are decoded as the character that they encode, -/
theorem next_char_two {b b1 : UInt8} (rest : List UInt8) (hlo : 0xc2 ≤ b.toNat) (hhi : b.toNat ≤ 0xdf)
    (h1 : is_cont b1 = true) :
    next_char b (b1 :: rest) = (1, Char.ofNat (b.toNat % 32 * 64 + b1.toNat % 64)) := by
  have hfirst : (b &&& 0x1f).toNat = b.toNat % 32 := Nat.and_two_pow_sub_one_eq_mod b.toNat 5
  simp only [next_char, utf8_char_width_two hlo hhi, List.getD_cons_zero, h1, hfirst, toNat_low]
  rfl

/-- so are three, where the second one is in the range that the first one leaves it, -/
theorem next_char_three {b b1 b2 : UInt8} (rest : List UInt8) (hlo : 0xe0 ≤ b.toNat) (hhi : b.toNat ≤ 0xef)
    (h1 : second_ok b b1 = true) (h2 : is_cont b2 = true) :
    next_char b (b1 :: b2 :: rest) =
      (2, Char.ofNat ((b.toNat % 16 * 64 + b1.toNat % 64) * 64 + b2.toNat % 64)) := by
  have hfirst : (b &&& 0x0f).toNat = b.toNat % 16 := Nat.and_two_pow_sub_one_eq_mod b.toNat 4
  simp only [next_char, utf8_char_width_three hlo hhi, List.getD_cons_zero, List.getD_cons_succ, h1, h2,
    hfirst, toNat_low]
  rfl

/-- and four. -/
theorem next_char_four {b b1 b2 b3 : UInt8} (rest : List UInt8) (hlo : 0xf0 ≤ b.toNat) (hhi : b.toNat ≤ 0xf4)
    (h1 : second_ok b b1 = true) (h2 : is_cont b2 = true) (h3 : is_cont b3 = true) :
    next_char b (b1 :: b2 :: b3 :: rest) =
      (3, Char.ofNat (((b.toNat % 8 * 64 + b1.toNat % 64) * 64 + b2.toNat % 64) * 64 + b3.toNat % 64)) := by
  have hfirst : (b &&& 0x07).toNat = b.toNat % 8 := Nat.and_two_pow_sub_one_eq_mod b.toNat 3
  simp only [next_char, utf8_char_width_four hlo hhi, List.getD_cons_zero, List.getD_cons_succ, h1, h2, h3,
    hfirst, toNat_low]
  rfl

theorem toNat_continuation (n : Nat) : (UInt8.ofNat (n % 0x40 + 0x80)).toNat = n % 0x40 + 0x80 :=
  toNat_ofNat (by omega)

/-- A byte after the first of an encoding carries six bits. -/
theorem is_cont_continuation (n : Nat) : is_cont (UInt8.ofNat (n % 0x40 + 0x80)) = true := by
  have hn := toNat_continuation n
  exact is_cont_of_toNat (by omega) (by omega)

/-- The first byte of a character's encoding gives the character back, with the
    bytes that follow it. -/
theorem next_char_encode (c : Char) (rest : List UInt8) :
    ∃ b tail, String.utf8EncodeChar c = b :: tail ∧ next_char b (tail ++ rest) = (tail.length, c) := by
  have hscalar := not_surrogate c
  have hc : Char.ofNat c.toNat = c := Char.ofNat_toNat c
  rw [String.utf8EncodeChar]
  generalize hv : c.toNat = v at hscalar hc
  simp only [show c.val.toNat = v from hv]
  split
  · have hb : (UInt8.ofNat v).toNat = v := toNat_ofNat (by omega)
    refine ⟨_, [], rfl, ?_⟩
    rw [next_char_one _ (by omega), hb, hc]
    rfl
  split
  · have hb : (UInt8.ofNat (v / 64 % 0x20 + 0xc0)).toNat = v / 64 + 0xc0 := by
      rw [toNat_ofNat (by omega)]
      omega
    have hbits : (v / 64 + 0xc0) % 32 * 64 + (v % 0x40 + 0x80) % 64 = v := by omega
    refine ⟨_, [_], rfl, ?_⟩
    rw [List.singleton_append, next_char_two _ (by omega) (by omega) (is_cont_continuation _), hb,
      toNat_continuation, hbits, hc]
    rfl
  split
  · have hb : (UInt8.ofNat (v / 4096 % 0x10 + 0xe0)).toNat = v / 4096 + 0xe0 := by
      rw [toNat_ofNat (by omega)]
      omega
    have hsecond : second_ok (UInt8.ofNat (v / 4096 % 0x10 + 0xe0)) (UInt8.ofNat (v / 64 % 0x40 + 0x80)) = true := by
      apply second_ok_of_toNat <;> rw [toNat_continuation] <;> omega
    have hbits : ((v / 4096 + 0xe0) % 16 * 64 + (v / 64 % 0x40 + 0x80) % 64) * 64 + (v % 0x40 + 0x80) % 64 = v := by
      omega
    refine ⟨_, [_, _], rfl, ?_⟩
    simp only [List.cons_append, List.nil_append]
    rw [next_char_three _ (by omega) (by omega) hsecond (is_cont_continuation _), hb, toNat_continuation,
      toNat_continuation, hbits, hc]
    rfl
  · have hb : (UInt8.ofNat (v / 262144 % 0x08 + 0xf0)).toNat = v / 262144 + 0xf0 := by
      rw [toNat_ofNat (by omega)]
      omega
    have hsecond :
        second_ok (UInt8.ofNat (v / 262144 % 0x08 + 0xf0))
          (UInt8.ofNat (v / 4096 % 0x40 + 0x80)) = true := by
      apply second_ok_of_toNat <;> rw [toNat_continuation] <;> omega
    have hbits :
        (((v / 262144 + 0xf0) % 8 * 64 + (v / 4096 % 0x40 + 0x80) % 64) * 64 +
          (v / 64 % 0x40 + 0x80) % 64) * 64 + (v % 0x40 + 0x80) % 64 = v := by
      omega
    refine ⟨_, [_, _, _], rfl, ?_⟩
    simp only [List.cons_append, List.nil_append]
    rw [next_char_four _ (by omega) (by omega) hsecond (is_cont_continuation _) (is_cont_continuation _), hb,
      toNat_continuation, toNat_continuation, toNat_continuation, hbits, hc]
    rfl

/-- The bytes a character takes are skipped. -/
theorem decode_lossy_skip (tail rest : List UInt8) :
    decode_lossy tail.length (tail ++ rest) = decode_lossy 0 rest := by
  induction tail with
  | nil => rfl
  | cons b tail ih =>
    rw [List.length_cons, List.cons_append, decode_lossy]
    exact ih

/-- A text survives its own encoding: decoding goes by the first byte of each
    character, and finds as many as that one asks for. -/
theorem from_utf8_lossy_encode (s : List Char) : from_utf8_lossy (encode s) = s := by
  rw [from_utf8_lossy]
  induction s with
  | nil => rfl
  | cons c s ih =>
    obtain ⟨b, tail, henc, hnext⟩ := next_char_encode c (encode s)
    rw [encode_cons, henc, List.cons_append, decode_lossy, hnext]
    simp only [decode_lossy_skip, ih]

end pjsua_rust.event
