import PjsuaRust.Passthrough.Config

open pjsua_rust.video_passthrough

namespace pjsua_rust.video

/-- H.264 `profile-level-id`, as advertised in SDP. -/
structure H264Profile where
  profile_idc : UInt8
  profile_iop : UInt8
  level_idc : UInt8
deriving DecidableEq, Repr

/-- Constrained Baseline at `level_idc`. -/
def H264Profile.constrained_baseline (level_idc : UInt8) : H264Profile :=
  { profile_idc := 0x42, profile_iop := 0xe0, level_idc }

def H264Profile.CONSTRAINED_BASELINE_3_1 : H264Profile := .constrained_baseline 31

/-- Receive limits beyond what the level implies; `none` leaves one out. -/
structure H264ReceiveLimits where
  max_fs : Option UInt32 := none
  max_mbps : Option UInt32 := none
  max_br_kbps : Option UInt32 := none
deriving DecidableEq, Repr

/-- The application's configuration. `max_frame_size` and `max_queue` are
    `usize`, here any natural number. -/
structure PassthroughConfig where
  width : UInt32 := 640
  height : UInt32 := 480
  fps : UInt32 := 15
  poll_fps : Option UInt32 := none
  max_frame_size : Nat := 256 * 1024
  avg_bps : UInt32 := 1000000
  max_bps : UInt32 := 1500000
  payload_type : UInt8 := 97
  packetization_mode : UInt8 := 1
  profile : H264Profile := .CONSTRAINED_BASELINE_3_1
  receive : H264ReceiveLimits := {}
  max_queue : Nat := 8
deriving DecidableEq, Repr

/-- The C view of a configuration. `max_frame_size as c_uint` keeps the low 32
    bits, and `fps * 2` wraps as it does in a release build. -/
def c_config (config : PassthroughConfig) : pjrs_vpt_config where
  width := config.width
  height := config.height
  fps := config.fps
  poll_fps := config.poll_fps.getD (config.fps * 2)
  max_frame_size := UInt32.ofNat config.max_frame_size
  avg_bps := config.avg_bps
  max_bps := config.max_bps
  pt := config.payload_type.toUInt32
  packetization_mode := config.packetization_mode.toUInt32
  profile_idc := config.profile.profile_idc
  profile_iop := config.profile.profile_iop
  level_idc := config.profile.level_idc
  max_fs := config.receive.max_fs.getD 0
  max_mbps := config.receive.max_mbps.getD 0
  max_br := config.receive.max_br_kbps.getD 0

/-- Below `2 ^ 32` the cast of `max_frame_size` loses nothing. -/
theorem c_config_max_frame_size {config : PassthroughConfig} (hlt : config.max_frame_size < 2 ^ 32) :
    (c_config config).max_frame_size.toNat = config.max_frame_size := by
  simpa [c_config] using Nat.mod_eq_of_lt hlt

end pjsua_rust.video
