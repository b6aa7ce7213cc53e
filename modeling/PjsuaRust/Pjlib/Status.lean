import Mathlib

namespace pjsua_rust

/-- The PJLIB status codes this code returns or tests for; any other error a
    library call can return is `PJ_ERROR` with its number. -/
inductive pj_status_t where
  | PJ_SUCCESS
  | PJ_EINVAL
  | PJ_EINVALIDOP
  | PJ_ENOMEM
  | PJ_ENOTSUP
  | PJ_EEXISTS
  | PJMEDIA_EVID_BADFORMAT
  | PJMEDIA_CODEC_EFRMTOOSHORT
  | PJ_ERROR (code : Nat)
deriving DecidableEq, Repr

/-- An access outside the memory it was made for. The functions that copy into
    or out of a buffer return it where C would read or write past the end. -/
inductive Fault where
  | out_of_bounds
deriving DecidableEq, Repr

/-- `pj_memcpy` of `src` to `dst + off`. -/
def pj_memcpy (dst : List UInt8) (off : Nat) (src : List UInt8) : Except Fault (List UInt8) :=
  if off + src.length ≤ dst.length then
    .ok (dst.take off ++ src ++ dst.drop (off + src.length))
  else
    .error .out_of_bounds

/-- The `len` bytes at the start of a buffer. -/
def read_bytes (src : List UInt8) (len : Nat) : Except Fault (List UInt8) :=
  if len ≤ src.length then .ok (src.take len) else .error .out_of_bounds

theorem pj_memcpy_eq {dst src : List UInt8} (hfits : src.length ≤ dst.length) :
    pj_memcpy dst 0 src = .ok (src ++ dst.drop src.length) := by
  simp [pj_memcpy, hfits]

/-- A copy that stays in its buffer leaves the buffer as long as it was. -/
theorem length_of_pj_memcpy {dst src out : List UInt8} {off : Nat}
    (hcopy : pj_memcpy dst off src = .ok out) : out.length = dst.length := by
  unfold pj_memcpy at hcopy
  split at hcopy
  · cases hcopy
    simp
    omega
  · cases hcopy

theorem read_bytes_eq {src : List UInt8} {len : Nat} (hfits : len ≤ src.length) :
    read_bytes src len = .ok (src.take len) := by
  simp [read_bytes, hfits]

/-- A read that does not fault stays in its buffer. -/
theorem read_bytes_ok {src out : List UInt8} {len : Nat} (hread : read_bytes src len = .ok out) :
    len ≤ src.length ∧ out = src.take len := by
  unfold read_bytes at hread
  split at hread
  · cases hread
    exact ⟨‹_›, rfl⟩
  · cases hread

/-- What was copied to the start of a buffer is read back from there. -/
theorem take_of_pj_memcpy {dst src out : List UInt8} (hcopy : pj_memcpy dst 0 src = .ok out) {len : Nat}
    (hlen : src.length = len) : out.take len = src := by
  unfold pj_memcpy at hcopy
  split at hcopy
  · cases hcopy
    simp [hlen]
  · cases hcopy

/-- A sequence of calls succeeds where each of them does. -/
theorem except_bind_ok {ε α β : Type} {x : Except ε α} {f : α → Except ε β} {b : β}
    (h : (x >>= f) = .ok b) : ∃ a, x = .ok a ∧ f a = .ok b := by
  cases x with
  | error e => cases h
  | ok a => exact ⟨a, rfl, h⟩

end pjsua_rust
