import PjsuaRust.Passthrough.AnnexB
import PjsuaRust.Passthrough.Codec

namespace pjsua_rust.video_passthrough

/-- A received packet. -/
structure RtpPacket where
  payload : List UInt8
  timestamp : UInt64
deriving DecidableEq, Repr

/-- `pjmedia_h264_unpacketize` of a payload into a buffer from a position: the
    status, and the buffer and the position it leaves. -/
abbrev Unpacketizer := List UInt8 → List UInt8 → UInt32 → pj_status_t × List UInt8 × UInt32

/-- PJMEDIA's side of the call: it writes within the buffer it is given, of
    `size` bytes, and leaves a position within it. -/
def Unpacketizer.InBounds (unpacketize : Unpacketizer) (size : UInt32) : Prop :=
  ∀ payload bits pos, bits.length = size.toNat → pos ≤ size →
    (unpacketize payload bits pos).2.1.length = size.toNat ∧ (unpacketize payload bits pos).2.2 ≤ size

/-- The loop of `vc_decode`: an error is only logged. -/
def unpacketize_all (unpacketize : Unpacketizer) (packets : List RtpPacket) (dec_buf : List UInt8) :
    List UInt8 × UInt32 :=
  packets.foldl (fun (bits, whole_len) packet =>
    let (_, bits, whole_len) := unpacketize packet.payload bits whole_len
    (bits, whole_len)) (dec_buf, 0)

/-- What one `vc_decode` leaves. -/
structure Decoded where
  vc : vpt_codec
  status : pj_status_t
  output : pjmedia_frame
  callbacks : List Callback

/-- The end of `vc_decode`, on an access unit that fits the frame. -/
def decode_deliver (vc : vpt_codec) (vpt : vpt_state) (whole_len : UInt32) (timestamp : UInt64)
    (output : pjmedia_frame) : Except Fault Decoded := do
  let vc := { vc with dec_seq := vc.dec_seq + 1 }
  let frame ← read_bytes vc.dec_buf whole_len.toNat
  let hdr := {
    magic := AU_MAGIC
    seq := vc.dec_seq
    len := whole_len
    flags := if is_keyframe frame then AU_FLAG_KEYFRAME else 0 }
  let buf ← output.buf.write_hdr hdr
  let callbacks := if vpt.cb.render_push then
      [.render_push frame (hdr.flags &&& AU_FLAG_KEYFRAME != 0)]
    else []
  let buf ← buf.write_body frame
  return {
    vc, callbacks
    status := .PJ_SUCCESS
    output := { output with buf, type := .VIDEO, size := vpt.framebytes.toNat, timestamp } }

/-- The sum in the size check is one of 32-bit unsigneds. -/
def vc_decode (vc : vpt_codec) (vpt : vpt_state) (unpacketize : Unpacketizer) (packets : List RtpPacket)
    (out_size : UInt32) (output : pjmedia_frame) : Except Fault Decoded :=
  match packets with
  | [] => .ok { vc, status := .PJ_EINVAL, output, callbacks := [] }
  | first :: _ =>
    let (dec_buf, whole_len) := unpacketize_all unpacketize packets vc.dec_buf
    let vc := { vc with dec_buf }
    if whole_len = 0 ∨ out_size < UInt32.ofNat AU_HDR_SIZE + whole_len then
      .ok {
        vc
        status := .PJ_SUCCESS
        output := { output with type := .NONE, size := 0, timestamp := first.timestamp }
        callbacks := [] }
    else decode_deliver vc vpt whole_len first.timestamp output

/-- A packetizer that keeps to the buffer with each packet keeps to it with all of
    them, those that fail included. -/
theorem unpacketize_all_inBounds {unpacketize : Unpacketizer} {size : UInt32}
    (hbounds : unpacketize.InBounds size) {dec_buf : List UInt8} (hlen : dec_buf.length = size.toNat)
    (packets : List RtpPacket) :
    (unpacketize_all unpacketize packets dec_buf).1.length = size.toNat ∧
      (unpacketize_all unpacketize packets dec_buf).2 ≤ size := by
  unfold unpacketize_all
  have hstart : (0 : UInt32) ≤ size := UInt32.zero_le
  generalize (0 : UInt32) = pos at hstart ⊢
  induction packets generalizing dec_buf pos with
  | nil => exact ⟨hlen, hstart⟩
  | cons packet packets ih =>
    obtain ⟨hbits, hpos⟩ := hbounds packet.payload dec_buf pos hlen hstart
    exact ih hbits _ hpos

/-- With a frame as large as the header and the largest access unit together,
    `vc_decode` stays inside its buffers. -/
theorem vc_decode_ok {vc : vpt_codec} {unpacketize : Unpacketizer}
    (hbounds : unpacketize.InBounds vc.dec_buf_size) (hlen : vc.dec_buf.length = vc.dec_buf_size.toNat)
    (output : pjmedia_frame) (hcap : vc.dec_buf_size.toNat + AU_HDR_SIZE ≤ output.buf.cap)
    (vpt : vpt_state) (packets : List RtpPacket) (out_size : UInt32) :
    ∃ d, vc_decode vc vpt unpacketize packets out_size output = .ok d ∧
      d.vc.prm = vc.prm ∧ d.vc.enc_buf = vc.enc_buf ∧ d.vc.dec_buf_size = vc.dec_buf_size ∧
      d.vc.dec_buf.length = vc.dec_buf.length := by
  cases packets with
  | nil => exact ⟨_, rfl, rfl, rfl, rfl, rfl⟩
  | cons first rest =>
    obtain ⟨hbuf, hwhole⟩ := unpacketize_all_inBounds hbounds hlen (first :: rest)
    unfold vc_decode
    generalize unpacketize_all unpacketize (first :: rest) vc.dec_buf = unpacked at hbuf hwhole
    obtain ⟨dec_buf, whole_len⟩ := unpacked
    dsimp only at hbuf hwhole ⊢
    split
    · exact ⟨_, rfl, rfl, rfl, rfl, hbuf.trans hlen.symm⟩
    · have hwhole' : whole_len.toNat ≤ vc.dec_buf_size.toNat := UInt32.le_iff_toNat_le.mp hwhole
      unfold decode_deliver
      simp only [read_bytes_eq (show whole_len.toNat ≤ dec_buf.length by omega),
        FrameBuf.write_hdr_eq (show AU_HDR_SIZE ≤ output.buf.cap by omega), bind, Except.bind]
      obtain ⟨buf, hwrite, -⟩ := FrameBuf.write_body_spec
        { output.buf with hdr := {
          magic := AU_MAGIC
          seq := vc.dec_seq + 1
          len := whole_len
          flags := if is_keyframe (dec_buf.take whole_len.toNat) then AU_FLAG_KEYFRAME else 0 } }
        (dec_buf.take whole_len.toNat) (by rw [List.length_take]; dsimp only; omega)
      rw [hwrite]
      exact ⟨_, rfl, rfl, rfl, rfl, hbuf.trans hlen.symm⟩

end pjsua_rust.video_passthrough
