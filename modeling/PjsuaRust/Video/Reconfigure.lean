import PjsuaRust.Video.Install

open pjsua_rust.video_passthrough transition

namespace pjsua_rust.video

/-- The checks of `pjrs_vpt_reconfigure` pass and the factory is unregistered: it
    goes on to replace the configuration. -/
structure Replaces (m : Module) (cfg : pjrs_vpt_config) (out : ReconfigureOutcome) : Prop where
  inited : m.vpt.inited = true
  valid : cfg_valid cfg = true
  max_frame_size : cfg.max_frame_size = m.vpt.cfg.max_frame_size
  pt : cfg.pt = m.vpt.cfg.pt
  mgr : out.mgr = true
  registered : m.codec_registered = true
  unregister : out.unregister = .PJ_SUCCESS

theorem unregister_status_success {m : Module} {out : ReconfigureOutcome} :
    out.unregister_status m = .PJ_SUCCESS ↔ m.codec_registered = true ∧ out.unregister = .PJ_SUCCESS := by
  unfold ReconfigureOutcome.unregister_status
  cases m.codec_registered <;> simp [PJ_ENOTFOUND]

/-- Where nothing stands in the way, the configuration is replaced, and the call
    ends with the status of the registration. -/
theorem pjrs_vpt_reconfigure_of_replaces {m : Module} {cfg : pjrs_vpt_config} {out : ReconfigureOutcome}
    (h : Replaces m cfg out) :
    pjrs_vpt_reconfigure m cfg out =
      let m := { unregister_codec_factory m with vpt := replace_cfg m.vpt cfg }
      if out.register ≠ .PJ_SUCCESS then (out.register, m.call .register_codec_factory)
      else (.PJ_SUCCESS, register_codec_factory m) := by
  have hsizes : ¬ (cfg.max_frame_size ≠ m.vpt.cfg.max_frame_size ∨ cfg.pt ≠ m.vpt.cfg.pt) := by
    simp [h.max_frame_size, h.pt]
  have hstatus : ¬ out.unregister_status m ≠ .PJ_SUCCESS :=
    not_not.mpr (unregister_status_success.mpr ⟨h.registered, h.unregister⟩)
  unfold pjrs_vpt_reconfigure
  rw [h.inited, Bool.not_true, if_neg Bool.false_ne_true, h.valid, Bool.not_true, if_neg Bool.false_ne_true,
    if_neg hsizes, h.mgr, Bool.not_true, if_neg Bool.false_ne_true, if_neg hstatus]
  rfl

/-- Otherwise it fails, and has at most asked the manager to unregister. Neither the
    configuration nor its strings change. -/
theorem pjrs_vpt_reconfigure_refused {m : Module} {cfg : pjrs_vpt_config} {out : ReconfigureOutcome}
    (h : ¬ Replaces m cfg out) :
    (pjrs_vpt_reconfigure m cfg out).1 ≠ .PJ_SUCCESS ∧
      (pjrs_vpt_reconfigure m cfg out).2.vpt = m.vpt ∧
      (pjrs_vpt_reconfigure m cfg out).2.codec_registered = m.codec_registered := by
  unfold pjrs_vpt_reconfigure
  split
  · exact ⟨nofun, rfl, rfl⟩
  rename_i hinited
  split
  · exact ⟨nofun, rfl, rfl⟩
  rename_i hvalid
  split
  · exact ⟨nofun, rfl, rfl⟩
  rename_i hsizes
  split
  · exact ⟨nofun, rfl, rfl⟩
  rename_i hmgr
  split
  · rename_i hstatus
    exact ⟨hstatus, rfl, rfl⟩
  · rename_i hstatus
    obtain ⟨hregistered, hunregister⟩ := unregister_status_success.mp (not_not.mp hstatus)
    obtain ⟨hsize, hpt⟩ := not_or.mp hsizes
    refine absurd ⟨by simpa using hinited, by simpa using hvalid, not_not.mp hsize, not_not.mp hpt,
      by simpa using hmgr, hregistered, hunregister⟩ h

/-- A passthrough handle on a process with an initialised module. -/
structure Installed where
  shared : Shared
  module : Module
deriving DecidableEq, Repr

inductive ReconfigureOp where
  | reconfigure (config : PassthroughConfig) (out : ReconfigureOutcome)

/-- The result of one `reconfigure`. -/
def Installed.result (s : Installed) : ReconfigureOp → Except pj_status_t Unit
  | .reconfigure config out => (VideoPassthrough.reconfigure s.shared s.module config out).1

def Installed.reconfigure (s : Installed) : ReconfigureOp → Installed
  | .reconfigure config out =>
    let (_, shared, module) := VideoPassthrough.reconfigure s.shared s.module config out
    { shared, module }

/-- Any number of reconfigurations, one after the other. -/
def reconfigures (s : Installed) : Machine Installed ReconfigureOp where
  start := s
  step s op := some (s.reconfigure op)

/-- The configuration, with all that is derived from it, and the registration of
    the codec factory are as they were. -/
structure AsBefore (s t : Installed) : Prop where
  cfg : t.module.vpt.cfg = s.module.vpt.cfg
  profile_level_id : t.module.vpt.profile_level_id = s.module.vpt.profile_level_id
  max_fs : t.module.vpt.max_fs = s.module.vpt.max_fs
  max_mbps : t.module.vpt.max_mbps = s.module.vpt.max_mbps
  max_br : t.module.vpt.max_br = s.module.vpt.max_br
  dev_factory : t.module.vpt.dev_factory = s.module.vpt.dev_factory
  max_queue : t.shared.max_queue = s.shared.max_queue
  codec_registered : t.module.codec_registered = s.module.codec_registered

/-- A failed reconfiguration changes nothing. -/
def AllOrNothing (s : Installed) (op : ReconfigureOp) : Prop :=
  ∀ err, s.result op = .error err → AsBefore s (s.reconfigure op)

/-- A valid configuration, of the frame size and payload type installed, will be
    taken if the manager's calls succeed. -/
def Ready (s : Installed) : Prop :=
  ∀ config, cfg_valid (c_config config) = true →
    (c_config config).max_frame_size = s.module.vpt.cfg.max_frame_size →
    (c_config config).pt = s.module.vpt.cfg.pt → s.result (.reconfigure config {}) = .ok ()

/-- Where the old registration is given up, the manager takes the new one. -/
def ReRegisters (s : Installed) : ReconfigureOp → Prop
  | .reconfigure config out => Replaces s.module (c_config config) out → out.register = .PJ_SUCCESS

/-- A reconfiguration that is refused leaves all as it was, on both sides: Rust
    changes its limit only after the C side has agreed. -/
theorem Installed.reconfigure_refused {s : Installed} {config : PassthroughConfig} {out : ReconfigureOutcome}
    (h : ¬ Replaces s.module (c_config config) out) :
    s.result (.reconfigure config out) ≠ .ok () ∧ AsBefore s (s.reconfigure (.reconfigure config out)) ∧
      (s.reconfigure (.reconfigure config out)).module.vpt = s.module.vpt := by
  obtain ⟨hstatus, hvpt, hregistered⟩ := pjrs_vpt_reconfigure_refused h
  simp only [Installed.result, Installed.reconfigure, VideoPassthrough.reconfigure, check_status, if_neg hstatus]
  refine ⟨fun hok => ?_, ⟨?_, ?_, ?_, ?_, ?_, ?_, rfl, hregistered⟩, hvpt⟩
  · cases hok
  all_goals rw [hvpt]

/-- One that is not refused replaces the configuration, and succeeds if the
    factory is registered again. -/
theorem Installed.reconfigure_of_replaces {s : Installed} {config : PassthroughConfig} {out : ReconfigureOutcome}
    (h : Replaces s.module (c_config config) out) :
    s.result (.reconfigure config out) = check_status out.register ∧
      (s.reconfigure (.reconfigure config out)).module.vpt = replace_cfg s.module.vpt (c_config config) ∧
      ((s.reconfigure (.reconfigure config out)).module.codec_registered = true ↔ out.register = .PJ_SUCCESS) := by
  simp only [Installed.result, Installed.reconfigure, VideoPassthrough.reconfigure,
    pjrs_vpt_reconfigure_of_replaces h]
  by_cases hregister : out.register = .PJ_SUCCESS
  · rw [hregister, if_neg (by decide)]
    exact ⟨rfl, rfl, iff_of_true rfl rfl⟩
  · rw [if_pos hregister]
    simp only [check_status, if_neg hregister]
    exact ⟨trivial, rfl, iff_of_false Bool.false_ne_true hregister⟩

/-- One call, from any installed passthrough, with any outcome of the calls that it
    makes. -/
theorem Installed.all_or_nothing_iff (s : Installed) (op : ReconfigureOp) : AllOrNothing s op ↔ ReRegisters s op := by
  obtain ⟨config, out⟩ := op
  constructor
  · intro hnothing hreplaces
    obtain ⟨hresult, -, hregistered⟩ := Installed.reconfigure_of_replaces hreplaces
    by_contra hregister
    rw [check_status, if_neg hregister] at hresult
    have hsame := (hnothing out.register hresult).codec_registered
    rw [hreplaces.registered] at hsame
    exact hregister (hregistered.mp hsame)
  · intro hregisters err herr
    by_cases hreplaces : Replaces s.module (c_config config) out
    · obtain ⟨hresult, -, -⟩ := Installed.reconfigure_of_replaces hreplaces
      rw [hregisters hreplaces] at hresult
      rw [hresult] at herr
      cases herr
    · exact (Installed.reconfigure_refused hreplaces).2.1

/-- The module is initialised and its codec factory registered. -/
structure Installed.Registered (s : Installed) : Prop where
  inited : s.module.vpt.inited = true
  codec_registered : s.module.codec_registered = true

/-- A registered factory is ready for the next valid configuration. -/
theorem Installed.Registered.ready {s : Installed} (h : s.Registered) : Ready s := by
  intro config hvalid hsize hpt
  have hreplaces : Replaces s.module (c_config config) {} :=
    ⟨h.inited, hvalid, hsize, hpt, rfl, h.codec_registered, rfl⟩
  exact (Installed.reconfigure_of_replaces hreplaces).1

/-- The factory stays registered across a call that meets the condition, whether the
    call succeeds or not. -/
theorem Installed.Registered.step {s : Installed} {op : ReconfigureOp} (h : s.Registered)
    (hok : ReRegisters s op) : (s.reconfigure op).Registered := by
  obtain ⟨config, out⟩ := op
  by_cases hreplaces : Replaces s.module (c_config config) out
  · obtain ⟨-, hvpt, hregistered⟩ := Installed.reconfigure_of_replaces hreplaces
    refine ⟨?_, hregistered.mpr (hok hreplaces)⟩
    rw [hvpt]
    exact h.inited
  · obtain ⟨-, hbefore, hvpt⟩ := Installed.reconfigure_refused hreplaces
    refine ⟨?_, hbefore.codec_registered.trans h.codec_registered⟩
    rw [hvpt]
    exact h.inited

/-- A successful install leaves the factory registered, which is where the runs of
    reconfigurations start. -/
theorem VideoPassthrough.install_registered {p p' : Process} {config : PassthroughConfig} {out : InitOutcome} {k : Nat}
    (hinstall : VideoPassthrough.install p config out = (.ok k, p')) (shared : Shared) :
    Installed.Registered { shared, module := p'.module } := by
  unfold VideoPassthrough.install at hinstall
  dsimp only at hinstall
  cases hinit : pjrs_vpt_init p.module (c_config config) install_callbacks out with
  | mk status module =>
    rw [hinit] at hinstall
    dsimp only at hinstall
    by_cases hstatus : status = .PJ_SUCCESS
    · subst hstatus
      obtain ⟨-, -, hregistered, pool, hvpt⟩ := pjrs_vpt_init_success hinit
      cases hinstall
      refine ⟨?_, hregistered⟩
      dsimp only
      rw [hvpt]
    · rw [check_status, if_neg hstatus] at hinstall
      cases hinstall

/-- A failed reconfiguration changes nothing exactly if, where the factory was
    unregistered, it is registered again; and in a sequence of them, from an
    installed passthrough, every failed one changes nothing and the next valid one
    can succeed exactly if that is so throughout. The configurations and the
    outcomes of the calls into PJMEDIA are arbitrary. -/
theorem VideoPassthrough.reconfigure_all_or_nothing_iff (s : Installed) :
    (∀ op, AllOrNothing s op ↔ ReRegisters s op) ∧
      (s.Registered → ∀ ops,
        (reconfigures s).EachStep (fun u op t => AllOrNothing u op ∧ Ready t) s ops ↔
          (reconfigures s).Admits ReRegisters s ops) := by
  refine ⟨s.all_or_nothing_iff, fun hregistered ops => ?_⟩
  obtain ⟨t, hexec⟩ := (reconfigures s).exec_total (fun u op => ⟨u.reconfigure op, rfl⟩) s ops
  have hkept : ∀ u, (reconfigures s).Reach ReRegisters u → u.Registered := by
    intro u hreach
    refine hreach.invariant hregistered fun v op w _ hok hstep hv => ?_
    cases hstep
    exact hv.step hok
  apply Machine.Reach.start.eachStep_iff _ hexec
  intro u op v hreach hstep
  cases hstep
  rw [u.all_or_nothing_iff]
  exact and_iff_left_of_imp fun hok => ((hkept u hreach).step hok).ready

/-- The passthrough installed with the default configuration. -/
def default_installed : Installed where
  shared := .new {}
  module := installed_once.module

/-- A wider picture, for which the manager refuses to register the factory
    again. -/
def not_registered_again : ReconfigureOp := .reconfigure { width := 800 } { register := .PJ_ENOMEM }

/-- A wider picture, which the manager takes, then one with frames of another size,
    which is refused, and one for which the manager does not unregister the
    factory. -/
def wider_then_refused : List ReconfigureOp :=
  [.reconfigure { width := 800 } {}, .reconfigure { width := 1024, max_frame_size := 1 } {},
    .reconfigure { width := 1024 } { unregister := .PJ_ENOMEM }]

theorem wider_then_refused_admitted :
    (reconfigures default_installed).Admits ReRegisters default_installed wider_then_refused := by
  refine .cons rfl (fun _ => rfl) <| .cons rfl (fun _ => rfl) <| .cons rfl (fun _ => rfl) trivial

/-- A wider picture that is taken, and two calls after it that fail and change
    nothing. -/
theorem VideoPassthrough.reconfigure_all_or_nothing_iff_wider :
    (reconfigures default_installed).EachStep (fun u op t => AllOrNothing u op ∧ Ready t) default_installed
        wider_then_refused ∧
      (default_installed.reconfigure (.reconfigure { width := 800 } {})).result
        (.reconfigure { width := 1024, max_frame_size := 1 } {}) = .error .PJ_EINVAL :=
  ⟨((VideoPassthrough.reconfigure_all_or_nothing_iff default_installed).2 ⟨by decide, by decide⟩ _).mpr
    wider_then_refused_admitted, by decide⟩

/-- The configuration is replaced by a call that fails. -/
theorem VideoPassthrough.not_reconfigure_all_or_nothing :
    ¬ ∀ (s : Installed) (op : ReconfigureOp), s.Registered → AllOrNothing s op := by
  intro hclaim
  have hnothing := hclaim default_installed not_registered_again ⟨by decide, by decide⟩
  exact absurd (hnothing .PJ_ENOMEM (by decide)).codec_registered (by decide)

end pjsua_rust.video
