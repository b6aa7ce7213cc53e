import PjsuaRust.Pjlib.Printf

namespace pjsua_rust

/-- The digit a byte stands for, letters in either case. -/
def digit_value (c : UInt8) : Option Nat :=
  if 0x30 ≤ c ∧ c ≤ 0x39 then some (c.toNat - 0x30)
  else if 0x61 ≤ c ∧ c ≤ 0x66 then some (c.toNat - 0x61 + 10)
  else if 0x41 ≤ c ∧ c ≤ 0x46 then some (c.toNat - 0x41 + 10)
  else none

/-- The number a text is the numeral of, after the digits of `n`. -/
def numeral_from (base n : Nat) : List UInt8 → Option Nat
  | [] => some n
  | c :: text =>
    match digit_value c with
    | some d => if d < base then numeral_from base (base * n + d) text else none
    | none => none

/-- The number a text is the numeral of; the empty text counts as 0. -/
def numeral (base : Nat) (text : List UInt8) : Option Nat := numeral_from base 0 text

end pjsua_rust
