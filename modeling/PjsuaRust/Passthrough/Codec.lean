import PjsuaRust.Passthrough.Frame

namespace pjsua_rust.video_passthrough

/-- The directions of a stream. -/
structure pjmedia_dir where
  encoding : Bool
  decoding : Bool
deriving DecidableEq, Repr

/-- The codec parameters this code reads: direction, the encoder's format and
    its MTU. The remote's fmtp goes straight to PJMEDIA's parser. -/
structure pjmedia_vid_codec_param where
  dir : pjmedia_dir
  width : UInt32
  height : UInt32
  avg_bps : UInt32
  max_bps : UInt32
  enc_mtu : UInt32
deriving DecidableEq, Repr

structure pjrs_vpt_stream_info where
  width : UInt32
  height : UInt32
  fps_num : UInt32
  fps_denum : UInt32
  avg_bps : UInt32
  max_bps : UInt32
deriving DecidableEq, Repr

/-- A call out to the application's side. -/
inductive Callback where
  | keyframe_request
  | encoder_open (info : pjrs_vpt_stream_info)
  | encoder_close
  | render_push (frame : List UInt8) (keyframe : Bool)
deriving DecidableEq, Repr

/-- What one codec keeps. -/
structure vpt_codec where
  prm : Option pjmedia_vid_codec_param
  enc_buf : List UInt8
  enc_len : UInt32
  enc_pos : UInt32
  enc_key : Bool
  enc_last_seq : UInt32
  enc_have_seq : Bool
  enc_sent_key : Bool
  enc_epoch : UInt32
  enc_single_nal : Bool
  oversize_drops : UInt32
  dec_buf : List UInt8
  dec_buf_size : UInt32
  dec_seq : UInt32
deriving DecidableEq, Repr

/-- `vc_alloc_codec`: a codec of all zeros. -/
def vc_alloc_codec : vpt_codec where
  prm := none
  enc_buf := []
  enc_len := 0
  enc_pos := 0
  enc_key := false
  enc_last_seq := 0
  enc_have_seq := false
  enc_sent_key := false
  enc_epoch := 0
  enc_single_nal := false
  oversize_drops := 0
  dec_buf := []
  dec_buf_size := 0
  dec_seq := 0

def request_keyframe (vpt : vpt_state) : List Callback :=
  if vpt.cb.keyframe_request then [.keyframe_request] else []

def notify_open (vpt : vpt_state) (prm : pjmedia_vid_codec_param) : List Callback :=
  if !vpt.cb.encoder_open || !prm.dir.encoding then []
  else
    [.encoder_open
      { width := prm.width
        height := prm.height
        fps_num := vpt.cfg.fps
        fps_denum := 1
        avg_bps := prm.avg_bps
        max_bps := prm.max_bps }]

/-- What PJMEDIA answers during one `vc_open`: the status of parsing the
    remote's fmtp, the mode it names, and the status of making a packetizer. -/
structure OpenOutcome where
  parse_fmtp : pj_status_t
  packetization_mode : UInt8
  packetizer_create : pj_status_t
deriving DecidableEq, Repr

def PJMEDIA_H264_PACKETIZER_MODE_SINGLE_NAL : UInt8 := 0

def PJMEDIA_H264_PACKETIZER_MODE_NON_INTERLEAVED : UInt8 := 1

def vc_open (vpt : vpt_state) (vc : vpt_codec) (param : pjmedia_vid_codec_param)
    (out : OpenOutcome) : pj_status_t × vpt_codec × List Callback :=
  let vc := { vc with prm := some param }
  if out.parse_fmtp ≠ .PJ_SUCCESS then (out.parse_fmtp, vc, [])
  else if out.packetization_mode ≠ PJMEDIA_H264_PACKETIZER_MODE_NON_INTERLEAVED ∧
      out.packetization_mode ≠ PJMEDIA_H264_PACKETIZER_MODE_SINGLE_NAL then
    (.PJ_ENOTSUP, vc, [])
  else if out.packetizer_create ≠ .PJ_SUCCESS then (out.packetizer_create, vc, [])
  else
    let vc := { vc with
      enc_buf := List.replicate vpt.cfg.max_frame_size.toNat 0
      dec_buf_size := vpt.cfg.max_frame_size
      dec_buf := List.replicate vpt.cfg.max_frame_size.toNat 0
      enc_len := 0
      enc_pos := 0
      enc_have_seq := false
      enc_sent_key := false
      enc_epoch := 0
      enc_single_nal := out.packetization_mode == PJMEDIA_H264_PACKETIZER_MODE_SINGLE_NAL
      oversize_drops := 0
      dec_seq := 0 }
    (.PJ_SUCCESS, vc,
      notify_open vpt param ++ if param.dir.encoding then request_keyframe vpt else [])

def vc_close (vpt : vpt_state) (vc : vpt_codec) : List Callback :=
  match vc.prm with
  | none => []
  | some prm => if vpt.cb.encoder_close && prm.dir.encoding then [.encoder_close] else []

/-- New bitrates for an open codec. -/
def vc_modify (vpt : vpt_state) (vc : vpt_codec) (avg_bps max_bps : UInt32) :
    vpt_codec × List Callback :=
  match vc.prm with
  | none => (vc, [])
  | some prm =>
    let prm := { prm with avg_bps, max_bps }
    ({ vc with prm := some prm }, notify_open vpt prm)

/-- The answers of PJMEDIA with which an open goes through. -/
def OpenOutcome.supported (out : OpenOutcome) : Prop :=
  out.parse_fmtp = .PJ_SUCCESS ∧
    (out.packetization_mode = PJMEDIA_H264_PACKETIZER_MODE_NON_INTERLEAVED ∨
      out.packetization_mode = PJMEDIA_H264_PACKETIZER_MODE_SINGLE_NAL) ∧
    out.packetizer_create = .PJ_SUCCESS

instance (out : OpenOutcome) : Decidable out.supported :=
  inferInstanceAs (Decidable (_ ∧ _))

/-- Everything one `vc_open` can do: succeed with a codec ready to encode, or
    fail with just the parameters stored. -/
theorem vc_open_cases (vpt : vpt_state) (vc : vpt_codec) (param : pjmedia_vid_codec_param)
    (out : OpenOutcome) :
    (out.supported ∧ ∃ vc', vc_open vpt vc param out = (.PJ_SUCCESS, vc',
        notify_open vpt param ++ if param.dir.encoding then request_keyframe vpt else []) ∧
      vc'.prm = some param ∧ vc'.enc_buf.length = vpt.cfg.max_frame_size.toNat ∧
      vc'.dec_buf.length = vpt.cfg.max_frame_size.toNat ∧
      vc'.dec_buf_size = vpt.cfg.max_frame_size ∧ vc'.enc_len = 0 ∧ vc'.enc_pos = 0 ∧
      vc'.enc_have_seq = false ∧ vc'.enc_sent_key = false ∧ vc'.enc_epoch = 0) ∨
    (¬ out.supported ∧ ∃ status, status ≠ .PJ_SUCCESS ∧
      vc_open vpt vc param out = (status, { vc with prm := some param }, [])) := by
  unfold vc_open OpenOutcome.supported
  dsimp only
  by_cases hparse : out.parse_fmtp = .PJ_SUCCESS
  · rw [if_neg (not_not_intro hparse)]
    split
    · rename_i hmode
      right
      refine ⟨?_, .PJ_ENOTSUP, by decide, rfl⟩
      rintro ⟨-, h | h, -⟩
      · exact hmode.1 h
      · exact hmode.2 h
    · rename_i hmode
      by_cases hcreate : out.packetizer_create = .PJ_SUCCESS
      · rw [if_neg (not_not_intro hcreate)]
        left
        refine ⟨⟨hparse, by tauto, hcreate⟩, _, rfl, rfl, ?_⟩
        simp
      · rw [if_pos hcreate]
        right
        exact ⟨fun h => hcreate h.2.2, _, hcreate, rfl⟩
  · rw [if_pos hparse]
    right
    exact ⟨fun h => hparse h.1, _, hparse, rfl⟩

end pjsua_rust.video_passthrough
