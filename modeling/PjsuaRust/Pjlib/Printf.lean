import PjsuaRust.Pjlib.Status

namespace pjsua_rust

/-- `%u`. -/
def fmt_u (n : Nat) : List UInt8 :=
  (Nat.toDigits 10 n).map fun c => UInt8.ofNat c.toNat

/-- `%d`. -/
def fmt_d : Int → List UInt8
  | .ofNat n => fmt_u n
  | .negSucc n => 0x2d :: fmt_u (n + 1)

/-- `%02x` of a byte. -/
def fmt_02x (b : UInt8) : List UInt8 :=
  [b.toNat / 16, b.toNat % 16].map fun d => UInt8.ofNat d.digitChar.toNat

/-- C's `int`: the low 32 bits, read as a signed number. -/
def c_int (n : Int) : Int := n.bmod (2 ^ 32)

/-- `%.*s` of the `slen` bytes at `ptr`, which `tail` follows in memory. The
    precision is an `int`; a negative one counts as if it were omitted, and then
    the bytes up to the first NUL are printed. -/
def fmt_s_prec (bytes tail : List UInt8) : List UInt8 :=
  let precision := c_int bytes.length
  let shown := if precision < 0 then bytes ++ tail else (bytes ++ tail).take precision.toNat
  shown.takeWhile (· != 0)

/-- What a buffer of `size` bytes holds after `pj_ansi_snprintf` of a text, the
    terminating NUL aside, and the value returned: the length of the whole text,
    also when it was cut short, or a negative value if that is no `int`. -/
def pj_ansi_snprintf (size : Nat) (text : List UInt8) : List UInt8 × Int :=
  (text.take (size - 1), if text.length < 2 ^ 31 then text.length else -1)

end pjsua_rust
