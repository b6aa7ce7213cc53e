import PjsuaRust.Passthrough.State

namespace pjsua_rust.video_passthrough

/-- Header in front of every AUH4 frame. -/
structure au_hdr where
  magic : UInt32
  seq : UInt32
  len : UInt32
  flags : UInt32
deriving DecidableEq, Repr

def AU_MAGIC : UInt32 := 0x34485541

def AU_FLAG_KEYFRAME : UInt32 := 1

inductive pjmedia_frame_type where
  | NONE
  | VIDEO
deriving DecidableEq, Repr

/-- A frame buffer of `cap` bytes, its first bytes seen as a header and the rest
    as the body behind it. A buffer shorter than a header has no body, and its
    header cannot be read or written whole. -/
structure FrameBuf where
  cap : Nat
  hdr : au_hdr
  body : List UInt8
  length_body : body.length = cap - AU_HDR_SIZE

/-- The frames the devices and the codec exchange: `size` is the size the frame
    claims, `buf` the memory behind it. -/
structure pjmedia_frame where
  type : pjmedia_frame_type
  bit_info : UInt32
  timestamp : UInt64
  size : Nat
  buf : FrameBuf

/-- `hdr = (au_hdr*)frame->buf`, read whole. -/
def FrameBuf.read_hdr (b : FrameBuf) : Except Fault au_hdr :=
  if AU_HDR_SIZE ≤ b.cap then .ok b.hdr else .error .out_of_bounds

/-- The same header written whole. -/
def FrameBuf.write_hdr (b : FrameBuf) (hdr : au_hdr) : Except Fault FrameBuf :=
  if AU_HDR_SIZE ≤ b.cap then .ok { b with hdr } else .error .out_of_bounds

/-- A copy to the bytes behind the header. -/
def FrameBuf.write_body (b : FrameBuf) (src : List UInt8) : Except Fault FrameBuf :=
  match h : pj_memcpy b.body 0 src with
  | .ok body => .ok { b with body, length_body := (length_of_pj_memcpy h).trans b.length_body }
  | .error e => .error e

/-- A zeroed buffer, as the bridge allocates it. -/
def FrameBuf.zero (cap : Nat) : FrameBuf where
  cap
  hdr := { magic := 0, seq := 0, len := 0, flags := 0 }
  body := List.replicate (cap - AU_HDR_SIZE) 0
  length_body := List.length_replicate

def pjmedia_frame.zero (size : Nat) : pjmedia_frame where
  type := .NONE
  bit_info := 0
  timestamp := 0
  size
  buf := .zero size

theorem FrameBuf.read_hdr_eq {b : FrameBuf} (hcap : AU_HDR_SIZE ≤ b.cap) : b.read_hdr = .ok b.hdr := by
  simp [FrameBuf.read_hdr, hcap]

theorem FrameBuf.write_hdr_eq {b : FrameBuf} (hcap : AU_HDR_SIZE ≤ b.cap) (hdr : au_hdr) :
    b.write_hdr hdr = .ok { b with hdr } := by
  simp [FrameBuf.write_hdr, hcap]

/-- A copy that fits behind the header starts the body and keeps the header. What
    the body had behind the copied bytes is not looked at again. -/
theorem FrameBuf.write_body_spec (b : FrameBuf) (src : List UInt8)
    (hfits : src.length + AU_HDR_SIZE ≤ b.cap) :
    ∃ b', b.write_body src = .ok b' ∧ b'.cap = b.cap ∧ b'.hdr = b.hdr ∧
      b'.body.take src.length = src := by
  have hlen : src.length ≤ b.body.length := by
    rw [b.length_body]
    omega
  have hcopy := pj_memcpy_eq hlen
  unfold FrameBuf.write_body
  split
  · rename_i body hbody
    rw [hcopy] at hbody
    cases hbody
    exact ⟨_, rfl, rfl, rfl, List.take_left⟩
  · rename_i e hbody
    rw [hcopy] at hbody
    cases hbody

end pjsua_rust.video_passthrough
