import PjsuaRust.Passthrough.Frame
import PjsuaRust.Video.Callbacks

open pjsua_rust.video

namespace pjsua_rust.video_passthrough

/-- The clock of an open device stream. -/
structure vpt_stream where
  ts : UInt64
  ts_inc : UInt32
deriving DecidableEq, Repr

/-- What `vd_get_frame` makes of the answer of `capture_peek`: length, keyframe
    flag and id. -/
def peeked (vpt : vpt_state) (slot : Option Shared) : Nat × Bool × UInt32 :=
  match if vpt.cb.capture_peek then capture_peek slot vpt.cfg.max_frame_size.toNat else none with
  | none => (0, false, 0)
  | some f =>
    (if vpt.cfg.max_frame_size.toNat < f.data.length ∨ f.id = 0 then 0 else f.data.length,
      f.keyframe, f.id)

/-- The bytes `capture_peek` copies. -/
def peeked_bytes (vpt : vpt_state) (slot : Option Shared) : List UInt8 :=
  match if vpt.cb.capture_peek then capture_peek slot vpt.cfg.max_frame_size.toNat else none with
  | none => []
  | some f => f.data

/-- One poll of the capture device: the front of the queue goes into the frame,
    tagged with its id, and stays queued. -/
def vd_get_frame (vpt : vpt_state) (slot : Option Shared) (strm : vpt_stream) (frame : pjmedia_frame) :
    Except Fault (pj_status_t × vpt_stream × pjmedia_frame) := do
  let frame := { frame with type := .VIDEO, bit_info := 0, timestamp := strm.ts }
  let strm := { strm with ts := strm.ts + strm.ts_inc.toUInt64 }
  if frame.size < vpt.framebytes.toNat then
    return (.PJMEDIA_EVID_BADFORMAT, strm, frame)
  let buf ← frame.buf.write_body (peeked_bytes vpt slot)
  let (len, key, id) := peeked vpt slot
  let buf ← buf.write_hdr
    { magic := AU_MAGIC
      len := UInt32.ofNat len
      flags := if key then AU_FLAG_KEYFRAME else 0
      seq := if len ≠ 0 then id else 0 }
  return (.PJ_SUCCESS, strm, { frame with buf, size := vpt.framebytes.toNat })

/-- The header `vd_get_frame` writes. -/
def polled_hdr (vpt : vpt_state) (slot : Option Shared) : au_hdr :=
  let (len, key, id) := peeked vpt slot
  { magic := AU_MAGIC
    len := UInt32.ofNat len
    flags := if key then AU_FLAG_KEYFRAME else 0
    seq := if len ≠ 0 then id else 0 }

/-- No more is peeked than the module was configured for, whatever is queued: the
    callback is given that size as the room it has. -/
theorem length_peeked_bytes_le (vpt : vpt_state) (slot : Option Shared) :
    (peeked_bytes vpt slot).length ≤ vpt.cfg.max_frame_size.toNat := by
  unfold peeked_bytes
  cases hpeek : if vpt.cb.capture_peek then capture_peek slot vpt.cfg.max_frame_size.toNat else none with
  | none => simp
  | some f =>
    split at hpeek
    · cases slot with
      | none => cases hpeek
      | some shared => exact (capture_peek_eq_some hpeek).2
    · cases hpeek

/-- On a frame whose buffer is as large as it claims, `vd_get_frame` stays
    inside it, given that the frames of the device hold the header and the
    largest access unit. It leaves the frame's header and the peeked bytes. -/
theorem vd_get_frame_ok (vpt : vpt_state) (frame : pjmedia_frame)
    (hbytes : vpt.cfg.max_frame_size.toNat + AU_HDR_SIZE ≤ vpt.framebytes.toNat)
    (hcap : frame.size ≤ frame.buf.cap) (slot : Option Shared) (strm : vpt_stream) :
    ∃ r, vd_get_frame vpt slot strm frame = .ok r ∧ (vpt.framebytes.toNat ≤ frame.size →
      r.2.2.size = vpt.framebytes.toNat ∧ r.2.2.buf.cap = frame.buf.cap ∧
      r.2.2.buf.hdr = polled_hdr vpt slot ∧
      r.2.2.buf.body.take (peeked_bytes vpt slot).length = peeked_bytes vpt slot) := by
  unfold vd_get_frame
  by_cases hsize : frame.size < vpt.framebytes.toNat
  · exact ⟨_, by simp only [hsize, if_true]; rfl, fun h => by omega⟩
  · have hlen := length_peeked_bytes_le vpt slot
    obtain ⟨buf, hwrite, hcap', -, hbody⟩ := FrameBuf.write_body_spec frame.buf
      (peeked_bytes vpt slot) (by omega)
    simp only [hsize, if_false, hwrite, bind, Except.bind,
      FrameBuf.write_hdr_eq (show AU_HDR_SIZE ≤ buf.cap by omega)]
    exact ⟨_, rfl, fun _ => ⟨rfl, hcap', rfl, hbody⟩⟩

/-- A front frame that C's limit admits is polled whole, with its id and its
    keyframe flag in the header. The frame must not be empty and its id not 0, since
    both stand for no frame. -/
theorem polled_front {vpt : vpt_state} {shared : Shared} {q : Queued} {rest : List Queued}
    (hcb : vpt.cb.capture_peek = true) (hframes : shared.queue.frames = q :: rest) (hid : q.id ≠ 0)
    (hdata : q.data ≠ []) (hfits : q.data.length ≤ vpt.cfg.max_frame_size.toNat) :
    peeked_bytes vpt (some shared) = q.data ∧
      polled_hdr vpt (some shared) =
        { magic := AU_MAGIC
          len := UInt32.ofNat q.data.length
          flags := if q.keyframe then AU_FLAG_KEYFRAME else 0
          seq := q.id } := by
  have hpeek := capture_peek_of_fits hframes hfits
  have hlen : ¬ (vpt.cfg.max_frame_size.toNat < q.data.length ∨ q.id = 0) := by
    rintro (hlt | hzero)
    · omega
    · exact hid hzero
  have hne : q.data.length ≠ 0 := by
    rw [Ne, List.length_eq_zero_iff]
    exact hdata
  simp only [peeked_bytes, polled_hdr, peeked, hcb, if_true, hpeek, if_neg hlen, ne_eq, hne,
    not_false_eq_true, and_self]

theorem polled_empty {vpt : vpt_state} {shared : Shared} (hframes : shared.queue.frames = []) :
    (polled_hdr vpt (some shared)).len = 0 := by
  have hpeek : capture_peek (some shared) vpt.cfg.max_frame_size.toNat = none := by
    simp only [capture_peek, hframes]
  simp only [polled_hdr, peeked, hpeek, ite_self]
  rfl

end pjsua_rust.video_passthrough
