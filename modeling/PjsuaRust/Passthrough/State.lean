import PjsuaRust.Passthrough.Config
import PjsuaRust.Pjlib.Printf

namespace pjsua_rust.video_passthrough

/-- Which of the callbacks are set. -/
structure pjrs_vpt_callbacks where
  capture_peek : Bool := false
  capture_consumed : Bool := false
  keyframe_request : Bool := false
  encoder_open : Bool := false
  encoder_close : Bool := false
  render_push : Bool := false
deriving DecidableEq, Repr

/-- The format a device reports: the part of `pjmedia_vid_dev_info` that
    depends on the configuration. -/
structure pjmedia_vid_dev_info where
  width : UInt32
  height : UInt32
  fps : UInt32
deriving DecidableEq, Repr

/-- `vpt_dev_factory`: the infos of the capture and the render device. -/
structure vpt_dev_factory where
  capture : pjmedia_vid_dev_info
  render : pjmedia_vid_dev_info
deriving DecidableEq, Repr

/-- The module's one state. `pool` and `lock` name the pool and the mutex in
    use, when there are any. -/
structure vpt_state where
  inited : Bool
  pool : Option Nat
  lock : Option Nat
  cfg : pjrs_vpt_config
  cb : pjrs_vpt_callbacks
  framebytes : UInt32
  dev_factory : Option vpt_dev_factory
  profile_level_id : List UInt8
  max_fs : List UInt8
  max_mbps : List UInt8
  max_br : List UInt8
  source_epoch : UInt32
  keyed_epoch : UInt32
deriving DecidableEq, Repr

/-- Static storage before the first use, and after `pj_bzero(&vpt, sizeof(vpt))`. -/
def vpt_state.zero : vpt_state where
  inited := false
  pool := none
  lock := none
  cfg := ⟨0, 0, 0, 0, 0, 0, 0, 0, 0, 0, 0, 0, 0, 0, 0⟩
  cb := {}
  framebytes := 0
  dev_factory := none
  profile_level_id := []
  max_fs := []
  max_mbps := []
  max_br := []
  source_epoch := 0
  keyed_epoch := 0

/-- The fmtp strings derived from cfg, in buffers of 8 and 12 bytes. -/
def set_fmtp_strings (vpt : vpt_state) (cfg : pjrs_vpt_config) : vpt_state :=
  { vpt with
    profile_level_id := (pj_ansi_snprintf 8
      (fmt_02x cfg.profile_idc ++ fmt_02x cfg.profile_iop ++ fmt_02x cfg.level_idc)).1
    max_fs := (pj_ansi_snprintf 12 (fmt_u cfg.max_fs.toNat)).1
    max_mbps := (pj_ansi_snprintf 12 (fmt_u cfg.max_mbps.toNat)).1
    max_br := (pj_ansi_snprintf 12 (fmt_u cfg.max_br.toNat)).1 }

def fill_dev_info (cfg : pjrs_vpt_config) : pjmedia_vid_dev_info where
  width := cfg.width
  height := cfg.height
  fps := cfg.poll_fps

/-- `vd_factory_init`, and the refill in `pjrs_vpt_reconfigure`. -/
def fill_dev_infos (cfg : pjrs_vpt_config) : vpt_dev_factory where
  capture := fill_dev_info cfg
  render := fill_dev_info cfg

/-- `set_keyed`: one section under the lock. -/
def set_keyed (vpt : vpt_state) (epoch : UInt32) : vpt_state :=
  { vpt with keyed_epoch := epoch }

/-- The locked read in `vc_encode_begin`: the epoch of the source, and whether
    a keyframe of it has gone out. -/
def read_epochs (vpt : vpt_state) : UInt32 × Bool :=
  (vpt.source_epoch, vpt.keyed_epoch == vpt.source_epoch)

/-- `pjrs_vpt_source_restarted`. The epoch is never 0, which `keyed_epoch` uses
    for "none". -/
def pjrs_vpt_source_restarted (vpt : vpt_state) : vpt_state :=
  if vpt.inited then
    { vpt with source_epoch := if vpt.source_epoch + 1 = 0 then 1 else vpt.source_epoch + 1 }
  else vpt

@[simp] theorem set_keyed_cb (vpt : vpt_state) (epoch : UInt32) :
    (set_keyed vpt epoch).cb = vpt.cb := rfl

@[simp] theorem set_keyed_inited (vpt : vpt_state) (epoch : UInt32) :
    (set_keyed vpt epoch).inited = vpt.inited := rfl

/-- A restart changes the epoch of the source and nothing else. -/
theorem pjrs_vpt_source_restarted_eq (vpt : vpt_state) :
    ∃ epoch, pjrs_vpt_source_restarted vpt = { vpt with source_epoch := epoch } := by
  unfold pjrs_vpt_source_restarted
  split
  · exact ⟨_, rfl⟩
  · exact ⟨vpt.source_epoch, rfl⟩

/-- The epoch after a restart is not the one that stands for none, also where the
    counter wraps. -/
theorem source_epoch_restarted_ne_zero {vpt : vpt_state} (hinited : vpt.inited = true) :
    (pjrs_vpt_source_restarted vpt).source_epoch ≠ 0 := by
  simp only [pjrs_vpt_source_restarted, hinited, if_true]
  by_cases hzero : vpt.source_epoch + 1 = 0
  · rw [if_pos hzero]
    decide
  · rw [if_neg hzero]
    exact hzero

end pjsua_rust.video_passthrough
