import PjsuaRust.Passthrough.State

namespace pjsua_rust.video_passthrough

/-- A call that takes, gives back or registers something, as PJLIB and PJMEDIA
    see it. `pj_pool_release` is called with whatever `vpt.pool` holds. -/
inductive PjCall where
  | pj_pool_create (pool : Nat)
  | pj_pool_release (pool : Option Nat)
  | pj_mutex_create (lock : Nat)
  | pj_mutex_destroy (lock : Nat)
  | register_codec_factory
  | unregister_codec_factory
  | register_dev_factory
  | unregister_dev_factory
deriving DecidableEq, Repr

/-- The module with what PJMEDIA knows of it: whether its factories are
    registered, and the calls it has made, newest first. -/
structure Module where
  vpt : vpt_state
  codec_registered : Bool
  dev_registered : Bool
  calls : List PjCall
deriving DecidableEq, Repr

/-- Nothing has used the module yet. -/
def Module.zero : Module where
  vpt := .zero
  codec_registered := false
  dev_registered := false
  calls := []

def Module.call (m : Module) (c : PjCall) : Module := { m with calls := c :: m.calls }

/-- `if (vpt.lock) pj_mutex_destroy(vpt.lock); vpt.lock = NULL`. -/
def Module.destroy_lock (m : Module) : Module :=
  let m := match m.vpt.lock with
    | none => m
    | some lock => m.call (.pj_mutex_destroy lock)
  { m with vpt := { m.vpt with lock := none } }

/-- `vd_factory_destroy`: the device factory's destroy operation, and the reset
    for a later pjsua instance. -/
def vd_factory_destroy (m : Module) : Module :=
  let m := m.destroy_lock
  let m := match m.vpt.pool with
    | none => m
    | some pool => m.call (.pj_pool_release (some pool))
  { m with vpt := { m.vpt with pool := none, inited := false } }

def unregister_codec_factory (m : Module) : Module :=
  { m.call .unregister_codec_factory with codec_registered := false }

/-- `pjmedia_vid_unregister_factory`, which calls the factory's destroy. -/
def unregister_dev_factory (m : Module) : Module :=
  { vd_factory_destroy (m.call .unregister_dev_factory) with dev_registered := false }

/-- The cleanup at the end of `pjrs_vpt_init`. -/
def on_error (m : Module) : Module :=
  let m := m.destroy_lock
  let m := m.call (.pj_pool_release m.vpt.pool)
  { m with vpt := { m.vpt with pool := none } }

/-- What the calls of one `pjrs_vpt_init` answer. -/
structure InitOutcome where
  mgr : Bool := true
  pool : Option Nat := some 0
  mutex : pj_status_t := .PJ_SUCCESS
  lock : Nat := 0
  format : pj_status_t := .PJ_SUCCESS
  fmt_match_cb : pj_status_t := .PJ_SUCCESS
  codec_factory : pj_status_t := .PJ_SUCCESS
  dev_factory : pj_status_t := .PJ_SUCCESS
  capture_lookup : pj_status_t := .PJ_SUCCESS
  capture : Int := 0
  render_lookup : pj_status_t := .PJ_SUCCESS
  render : Int := 1
deriving DecidableEq, Repr

/-- The state `pjrs_vpt_init` fills in before it allocates anything. The size
    of a frame is a sum of 32-bit unsigneds. -/
def vpt_state.configured (cfg : pjrs_vpt_config) (cb : pjrs_vpt_callbacks) : vpt_state :=
  set_fmtp_strings { vpt_state.zero with
    cfg, cb
    framebytes := UInt32.ofNat AU_HDR_SIZE + cfg.max_frame_size
    source_epoch := 1 } cfg

def Module.set_pool (m : Module) (pool : Nat) : Module :=
  { m.call (.pj_pool_create pool) with vpt := { m.vpt with pool := some pool } }

def Module.set_lock (m : Module) (lock : Nat) : Module :=
  { m.call (.pj_mutex_create lock) with vpt := { m.vpt with lock := some lock } }

def register_codec_factory (m : Module) : Module :=
  { m.call .register_codec_factory with codec_registered := true }

/-- `vpt.dev_factory = &df->base`, in memory the factory's own init fills. -/
def Module.set_dev_factory (m : Module) (cfg : pjrs_vpt_config) : Module :=
  { m with vpt := { m.vpt with dev_factory := some (fill_dev_infos cfg) } }

def register_dev_factory (m : Module) : Module :=
  { m.call .register_dev_factory with dev_registered := true }

def Module.set_inited (m : Module) : Module :=
  { m with vpt := { m.vpt with inited := true } }

/-- The status of the two device lookups, the second made if the first went
    well. -/
def InitOutcome.lookup (out : InitOutcome) : pj_status_t :=
  if out.capture_lookup = .PJ_SUCCESS then out.render_lookup else out.capture_lookup

/-- `pjrs_vpt_init` from the devices on. -/
def init_devices (m : Module) (cfg : pjrs_vpt_config) (out : InitOutcome) : pj_status_t × Module :=
  let m := m.set_dev_factory cfg
  if out.dev_factory ≠ .PJ_SUCCESS then
    (out.dev_factory, on_error (unregister_codec_factory m))
  else if out.lookup ≠ .PJ_SUCCESS then
    (out.lookup, on_error (unregister_codec_factory (unregister_dev_factory (register_dev_factory m))))
  else (.PJ_SUCCESS, (register_dev_factory m).set_inited)

/-- `pjrs_vpt_init` from the format on. -/
def init_codec (m : Module) (cfg : pjrs_vpt_config) (out : InitOutcome) : pj_status_t × Module :=
  if out.format ≠ .PJ_SUCCESS then (out.format, on_error m)
  else if out.fmt_match_cb ≠ .PJ_SUCCESS ∧ out.fmt_match_cb ≠ .PJ_EEXISTS then
    (out.fmt_match_cb, on_error m)
  else if out.codec_factory ≠ .PJ_SUCCESS then (out.codec_factory, on_error m)
  else init_devices (register_codec_factory m) cfg out

/-- `pjrs_vpt_init`. The indices it looks up are `out.capture` and
    `out.render`. -/
def pjrs_vpt_init (m : Module) (cfg : pjrs_vpt_config) (cb : pjrs_vpt_callbacks) (out : InitOutcome) :
    pj_status_t × Module :=
  if m.vpt.inited then (.PJ_EINVALIDOP, m)
  else if !cfg_valid cfg then (.PJ_EINVAL, m)
  else if !out.mgr then (.PJ_EINVALIDOP, m)
  else
    let m := { m with vpt := vpt_state.configured cfg cb }
    match out.pool with
    | none => (.PJ_ENOMEM, m)
    | some pool =>
      if out.mutex ≠ .PJ_SUCCESS then (out.mutex, on_error (m.set_pool pool))
      else init_codec ((m.set_pool pool).set_lock out.lock) cfg out

/-- A second initialisation is refused and changes nothing. -/
theorem pjrs_vpt_init_of_inited {m : Module} (hinited : m.vpt.inited = true)
    (cfg : pjrs_vpt_config) (cb : pjrs_vpt_callbacks) (out : InitOutcome) :
    pjrs_vpt_init m cfg cb out = (.PJ_EINVALIDOP, m) := by
  rw [pjrs_vpt_init, if_pos hinited]

/-- A status returned by a failed call is not that of success. -/
theorem not_success_of_ne {status : pj_status_t} {m m' : Module} (hne : status ≠ .PJ_SUCCESS) :
    (status, m) ≠ (pj_status_t.PJ_SUCCESS, m') := by
  intro heq
  exact hne (congrArg Prod.fst heq)

/-- Where this succeeds, the device factory is set up and registered, and the module
    is initialised. -/
theorem init_devices_success {m m' : Module} {cfg : pjrs_vpt_config} {out : InitOutcome}
    (hinit : init_devices m cfg out = (.PJ_SUCCESS, m')) :
    m' = (register_dev_factory (m.set_dev_factory cfg)).set_inited := by
  unfold init_devices at hinit
  dsimp only at hinit
  split at hinit
  · rename_i hdev
    exact absurd hinit (not_success_of_ne hdev)
  split at hinit
  · rename_i hlookup
    exact absurd hinit (not_success_of_ne hlookup)
  · exact (congrArg Prod.snd hinit).symm

/-- Where this succeeds, the codec factory is registered, and the devices are
    initialised too. -/
theorem init_codec_success {m m' : Module} {cfg : pjrs_vpt_config} {out : InitOutcome}
    (hinit : init_codec m cfg out = (.PJ_SUCCESS, m')) :
    init_devices (register_codec_factory m) cfg out = (.PJ_SUCCESS, m') := by
  unfold init_codec at hinit
  split at hinit
  · rename_i hformat
    exact absurd hinit (not_success_of_ne hformat)
  split at hinit
  · rename_i hmatch
    exact absurd hinit (not_success_of_ne hmatch.1)
  split at hinit
  · rename_i hcodec
    exact absurd hinit (not_success_of_ne hcodec)
  · exact hinit

/-- What a successful initialisation needs, and the state it leaves. It takes a
    valid configuration and a module that is not in use, and leaves the codec
    factory registered and no keyframe sent. -/
theorem pjrs_vpt_init_success {m m' : Module} {cfg : pjrs_vpt_config} {cb : pjrs_vpt_callbacks}
    {out : InitOutcome} (hinit : pjrs_vpt_init m cfg cb out = (.PJ_SUCCESS, m')) :
    m.vpt.inited = false ∧ cfg_valid cfg = true ∧ m'.codec_registered = true ∧
      ∃ pool, m'.vpt = { vpt_state.configured cfg cb with
        inited := true, pool := some pool, lock := some out.lock
        dev_factory := some (fill_dev_infos cfg) } := by
  unfold pjrs_vpt_init at hinit
  dsimp only at hinit
  split at hinit
  · exact absurd hinit (not_success_of_ne (by decide))
  rename_i hinited
  split at hinit
  · exact absurd hinit (not_success_of_ne (by decide))
  rename_i hvalid
  split at hinit
  · exact absurd hinit (not_success_of_ne (by decide))
  split at hinit
  · exact absurd hinit (not_success_of_ne (by decide))
  rename_i pool hpool
  split at hinit
  · rename_i hmutex
    exact absurd hinit (not_success_of_ne hmutex)
  have hm' := init_devices_success (init_codec_success hinit)
  subst hm'
  exact ⟨by simpa using hinited, by simpa using hvalid, rfl, pool, rfl⟩

end pjsua_rust.video_passthrough
