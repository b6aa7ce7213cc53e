import PjsuaRust.Passthrough.Init

namespace pjsua_rust.video_passthrough

/-- What the codec manager answers during one `pjrs_vpt_reconfigure`. Its answer
    to unregistering counts only while the factory is registered; otherwise it
    returns an error. -/
structure ReconfigureOutcome where
  mgr : Bool := true
  unregister : pj_status_t := .PJ_SUCCESS
  register : pj_status_t := .PJ_SUCCESS
deriving DecidableEq, Repr

/-- `PJ_ENOTFOUND`, for a factory that is not registered. -/
def PJ_ENOTFOUND : pj_status_t := .PJ_ERROR 70006

def ReconfigureOutcome.unregister_status (out : ReconfigureOutcome) (m : Module) : pj_status_t :=
  if m.codec_registered then out.unregister else PJ_ENOTFOUND

/-- The section of `pjrs_vpt_reconfigure` under the lock. -/
def replace_cfg (vpt : vpt_state) (cfg : pjrs_vpt_config) : vpt_state :=
  set_fmtp_strings { vpt with cfg, dev_factory := some (fill_dev_infos cfg) } cfg

def pjrs_vpt_reconfigure (m : Module) (cfg : pjrs_vpt_config) (out : ReconfigureOutcome) :
    pj_status_t × Module :=
  if !m.vpt.inited then (.PJ_EINVALIDOP, m)
  else if !cfg_valid cfg then (.PJ_EINVAL, m)
  else if cfg.max_frame_size ≠ m.vpt.cfg.max_frame_size ∨ cfg.pt ≠ m.vpt.cfg.pt then (.PJ_EINVAL, m)
  else if !out.mgr then (.PJ_EINVALIDOP, m)
  else if out.unregister_status m ≠ .PJ_SUCCESS then
    (out.unregister_status m, m.call .unregister_codec_factory)
  else
    let m := unregister_codec_factory m
    let m := { m with vpt := replace_cfg m.vpt cfg }
    if out.register ≠ .PJ_SUCCESS then (out.register, m.call .register_codec_factory)
    else (.PJ_SUCCESS, register_codec_factory m)

/-- The module state after a reconfiguration: as it was, or with a configuration
    of the same frame size and payload type in place. -/
theorem pjrs_vpt_reconfigure_vpt (m : Module) (cfg : pjrs_vpt_config) (out : ReconfigureOutcome) :
    (pjrs_vpt_reconfigure m cfg out).2.vpt = m.vpt ∨
      (cfg.max_frame_size = m.vpt.cfg.max_frame_size ∧
        (pjrs_vpt_reconfigure m cfg out).2.vpt = replace_cfg m.vpt cfg) := by
  unfold pjrs_vpt_reconfigure
  split
  · exact .inl rfl
  split
  · exact .inl rfl
  split
  · exact .inl rfl
  rename_i hsizes
  split
  · exact .inl rfl
  split
  · exact .inl rfl
  dsimp only
  have hsize : cfg.max_frame_size = m.vpt.cfg.max_frame_size := by
    by_contra hne
    exact hsizes (.inl hne)
  split <;> exact .inr ⟨hsize, rfl⟩

end pjsua_rust.video_passthrough
