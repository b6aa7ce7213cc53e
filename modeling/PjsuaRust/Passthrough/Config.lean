import PjsuaRust.Pjlib.Status

namespace pjsua_rust.video_passthrough

/-- The configuration as C holds it: every size and rate is a 32-bit unsigned. -/
structure pjrs_vpt_config where
  width : UInt32
  height : UInt32
  fps : UInt32
  poll_fps : UInt32
  max_frame_size : UInt32
  avg_bps : UInt32
  max_bps : UInt32
  pt : UInt32
  packetization_mode : UInt32
  profile_idc : UInt8
  profile_iop : UInt8
  level_idc : UInt8
  max_fs : UInt32
  max_mbps : UInt32
  max_br : UInt32
deriving DecidableEq, Repr, Inhabited

def cfg_valid (cfg : pjrs_vpt_config) : Bool :=
  cfg.width != 0 && cfg.height != 0 && cfg.fps != 0 && cfg.poll_fps != 0 &&
    cfg.max_frame_size != 0 && cfg.packetization_mode ≤ 1

/-- `sizeof(au_hdr)`: the header in front of every AUH4 frame. -/
def AU_HDR_SIZE : Nat := 16

end pjsua_rust.video_passthrough
