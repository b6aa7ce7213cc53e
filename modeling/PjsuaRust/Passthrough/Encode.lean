import PjsuaRust.Passthrough.AnnexB
import PjsuaRust.Passthrough.Codec

namespace pjsua_rust.video_passthrough

/-- A packet PJMEDIA's packetizer makes, with the position it moves on to. -/
structure Packet where
  pos : UInt32
  payload : List UInt8
deriving DecidableEq, Repr

/-- `pjmedia_h264_packetize` on an access unit from a position, `none` where it
    returns an error. -/
abbrev Packetizer := List UInt8 → UInt32 → Option Packet

/-- The frame a packet is returned in. -/
structure Output where
  type : pjmedia_frame_type := .NONE
  keyframe : Bool := false
  timestamp : UInt64 := 0
  payload : List UInt8 := []
deriving DecidableEq, Repr

/-- What became of an access unit in one call: nothing was sent or packetized,
    it was given to the packetizer, or it was dropped by `drop_oversized`. -/
inductive Fate where
  | skipped
  | packetized
  | dropped
deriving DecidableEq, Repr

/-- What one encoder call leaves. -/
structure Encoded where
  vc : vpt_codec
  vpt : vpt_state
  status : pj_status_t
  output : Output
  has_more : Bool
  fate : Fate
  callbacks : List Callback

/-- The answer to arguments that `PJ_ASSERT_RETURN` refuses, of which the model has
    `out_size`: the pointers are never null. Nothing is written, also not
    `has_more`. -/
def einval (vc : vpt_codec) (vpt : vpt_state) (output : Output) : Encoded where
  vc
  vpt
  status := .PJ_EINVAL
  output
  has_more := false
  fate := .skipped
  callbacks := []

def no_output (vc : vpt_codec) (vpt : vpt_state) (output : Output) (input : pjmedia_frame) : Encoded where
  vc
  vpt
  status := .PJ_SUCCESS
  output := { output with type := .NONE, payload := [], timestamp := input.timestamp }
  has_more := false
  fate := .skipped
  callbacks := []

/-- The access unit is given up: what follows references it. -/
def drop_oversized (vc : vpt_codec) (vpt : vpt_state) (output : Output) : Encoded where
  vc := { vc with
    enc_len := 0
    enc_pos := 0
    enc_sent_key := false
    oversize_drops := vc.oversize_drops + 1 }
  vpt := set_keyed vpt 0
  status := .PJ_SUCCESS
  output := { output with type := .NONE, payload := [] }
  has_more := false
  fate := .dropped
  callbacks := request_keyframe vpt

/-- The access unit the codec holds. -/
def vpt_codec.access_unit (vc : vpt_codec) : List UInt8 := vc.enc_buf.take vc.enc_len.toNat

def vc_encode_more (vc : vpt_codec) (vpt : vpt_state) (packetize : Packetizer) (out_size : Nat)
    (output : Output) : Encoded :=
  if out_size = 0 then einval vc vpt output
  else if vc.enc_len ≤ vc.enc_pos then
    { vc, vpt
      status := .PJ_SUCCESS
      output := { output with type := .NONE, payload := [] }
      has_more := false
      fate := .skipped
      callbacks := [] }
  else
    match packetize vc.access_unit vc.enc_pos with
    | none => drop_oversized vc vpt output
    | some packet =>
      let vc := { vc with enc_pos := packet.pos }
      if out_size < packet.payload.length then
        { vc, vpt
          status := .PJMEDIA_CODEC_EFRMTOOSHORT
          output
          has_more := false
          fate := .packetized
          callbacks := [] }
      else
        { vc, vpt
          status := .PJ_SUCCESS
          output := { output with
            type := .VIDEO
            payload := packet.payload
            keyframe := output.keyframe || vc.enc_key }
          has_more := vc.enc_pos < vc.enc_len
          fate := .packetized
          callbacks := [] }

/-- The checks with which `vc_encode_begin` starts: the header of a frame that
    is well formed, not empty, and not the one taken last. -/
def encode_input (vc : vpt_codec) (input : pjmedia_frame) : Except Fault (Option au_hdr) := do
  if input.size < AU_HDR_SIZE then
    return none
  let hdr ← input.buf.read_hdr
  if hdr.magic ≠ AU_MAGIC ∨ hdr.len = 0 ∨ input.size - AU_HDR_SIZE < hdr.len.toNat ∨
      (vc.enc_have_seq ∧ hdr.seq = vc.enc_last_seq) then
    return none
  return some hdr

/-- The frame in hand is now the last one taken. -/
def encode_take (vc : vpt_codec) (hdr : au_hdr) : vpt_codec :=
  { vc with enc_last_seq := hdr.seq, enc_have_seq := true }

/-- The flags of the codec once the epochs are read. -/
def encode_gate (vc : vpt_codec) (hdr : au_hdr) (epoch : UInt32) (keyed : Bool) : vpt_codec :=
  let vc := if vc.enc_epoch ≠ epoch then { vc with enc_epoch := epoch, enc_sent_key := keyed } else vc
  { vc with enc_key := hdr.flags &&& AU_FLAG_KEYFRAME != 0 }

/-- The check before the first packet: in single-NAL mode no NAL unit may be
    over the MTU. -/
def oversized (vc : vpt_codec) (frame : List UInt8) : Bool :=
  match vc.prm with
  | none => false
  | some prm => vc.enc_single_nal && prm.enc_mtu.toNat < largest_nal frame

/-- Once the epochs are read: send nothing until the remote has a keyframe of
    this source stream, otherwise copy the access unit. Says whether there is
    something to send. -/
def encode_ready (vc : vpt_codec) (input : pjmedia_frame) (hdr : au_hdr) (epoch : UInt32) (keyed : Bool) :
    Except Fault (Bool × vpt_codec) := do
  let vc := encode_gate vc hdr epoch keyed
  if !vc.enc_sent_key && !vc.enc_key then
    return (false, vc)
  let vc := { vc with enc_sent_key := true }
  let frame ← read_bytes input.buf.body hdr.len.toNat
  let enc_buf ← pj_memcpy vc.enc_buf 0 frame
  return (true, { vc with enc_buf, enc_len := hdr.len, enc_pos := 0 })

/-- The rest of `vc_encode_begin` once the epochs are read: the check of an
    access unit in single-NAL mode, and its first packet. -/
def encode_send (vc : vpt_codec) (vpt : vpt_state) (input : pjmedia_frame) (hdr : au_hdr)
    (epoch : UInt32) (keyed : Bool) (packetize : Packetizer) (out_size : Nat) (output : Output) :
    Except Fault Encoded := do
  let (send, vc) ← encode_ready vc input hdr epoch keyed
  if !send then
    return no_output vc vpt output input
  let output := { output with timestamp := input.timestamp }
  if oversized vc vc.access_unit then
    return drop_oversized vc vpt output
  let vpt := if vc.enc_key then set_keyed vpt epoch else vpt
  return vc_encode_more vc vpt packetize out_size output

end pjsua_rust.video_passthrough
