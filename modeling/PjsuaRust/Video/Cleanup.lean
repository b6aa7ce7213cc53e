import PjsuaRust.Video.Install

open transition

namespace pjsua_rust.video_passthrough

/-- The calls that work on the pool or on what lies in it: the mutex, which the
    factories' operations lock, and the device factory. -/
def PjCall.uses_pool : PjCall → Bool
  | .pj_pool_release (some _) | .pj_mutex_create _ | .pj_mutex_destroy _ => true
  | .register_codec_factory | .register_dev_factory | .unregister_dev_factory => true
  | .pj_pool_create _ | .pj_pool_release none | .unregister_codec_factory => false

/-- The calls that work on the mutex. Registering a factory has its operations
    called, which lock it. -/
def PjCall.uses_lock : PjCall → Bool
  | .pj_mutex_destroy _ | .register_codec_factory | .register_dev_factory => true
  | _ => false

/-- The calls made between two states, newest first. -/
def made (m m' : Module) : List PjCall := m'.calls.take (m'.calls.length - m.calls.length)

/-- What is created is released once, and not used afterwards. -/
structure GivenBack (made : List PjCall) (create release : PjCall) (uses : PjCall → Bool) : Prop where
  once : made.count release = if create ∈ made then 1 else 0
  unused : made.Pairwise fun later earlier => earlier = release → uses later = false

/-- What a failed `pjrs_vpt_init` has to leave. `pj_pool_release` reads the pool it
    is given, so that with none it does not return. -/
structure CleanedUp (m m' : Module) : Prop where
  returns : .pj_pool_release none ∉ made m m'
  pool : ∀ pool, GivenBack (made m m') (.pj_pool_create pool) (.pj_pool_release (some pool)) PjCall.uses_pool
  lock : ∀ lock, GivenBack (made m m') (.pj_mutex_create lock) (.pj_mutex_destroy lock) PjCall.uses_lock
  codec_registered : m'.codec_registered = false
  dev_registered : m'.dev_registered = false
  inited : m'.vpt.inited = false
  lock_null : m'.vpt.lock = none
  pool_null : m'.vpt.pool = none

/-- The module is not in use. -/
structure Module.Idle (m : Module) : Prop where
  codec_registered : m.codec_registered = false
  dev_registered : m.dev_registered = false
  inited : m.vpt.inited = false
  lock : m.vpt.lock = none
  pool : m.vpt.pool = none

/-- Everything up to the registration of the device factory succeeds, and one of
    its devices is not found. -/
structure LookupFails (out : InitOutcome) : Prop where
  mgr : out.mgr = true
  pool : out.pool ≠ none
  mutex : out.mutex = .PJ_SUCCESS
  format : out.format = .PJ_SUCCESS
  fmt_match_cb : out.fmt_match_cb = .PJ_SUCCESS ∨ out.fmt_match_cb = .PJ_EEXISTS
  codec_factory : out.codec_factory = .PJ_SUCCESS
  dev_factory : out.dev_factory = .PJ_SUCCESS
  lookup : out.lookup ≠ .PJ_SUCCESS

/-- The calls of a `pjrs_vpt_init` that fails, newest first. -/
inductive FailedCalls (out : InitOutcome) : List PjCall → Prop where
  | early (hout : ¬ LookupFails out) : FailedCalls out []
  | mutex (hout : ¬ LookupFails out) (pool : Nat) :
      FailedCalls out [.pj_pool_release (some pool), .pj_pool_create pool]
  | registering (hout : ¬ LookupFails out) (pool : Nat) :
      FailedCalls out [.pj_pool_release (some pool), .pj_mutex_destroy out.lock, .pj_mutex_create out.lock,
        .pj_pool_create pool]
  | dev_factory (hout : ¬ LookupFails out) (pool : Nat) :
      FailedCalls out [.pj_pool_release (some pool), .pj_mutex_destroy out.lock, .unregister_codec_factory,
        .register_codec_factory, .pj_mutex_create out.lock, .pj_pool_create pool]
  -- Unregistering the device factory has released the pool before the cleanup does.
  | lookup (hout : LookupFails out) (pool : Nat) :
      FailedCalls out [.pj_pool_release none, .unregister_codec_factory, .pj_pool_release (some pool),
        .pj_mutex_destroy out.lock, .unregister_dev_factory, .register_dev_factory, .register_codec_factory,
        .pj_mutex_create out.lock, .pj_pool_create pool]

/-- How a `pjrs_vpt_init` fails: with these calls made, and the module idle again. -/
structure InitFailed (m : Module) (out : InitOutcome) (m' : Module) : Prop where
  calls : ∃ calls, m'.calls = calls ++ m.calls ∧ FailedCalls out calls
  idle : m'.Idle

theorem made_of_calls {m m' : Module} {calls : List PjCall} (hcalls : m'.calls = calls ++ m.calls) :
    made m m' = calls := by
  rw [made, hcalls, List.length_append, Nat.add_sub_cancel, List.take_left]

/-- Once pool and mutex exist, a failure releases both. Neither factory was
    registered before, and whatever was registered on the way is unregistered again. -/
theorem init_codec_failed {m : Module} (hcodec : m.codec_registered = false) (hdev : m.dev_registered = false)
    (hinited : m.vpt.inited = false) (cfg : pjrs_vpt_config) {out : InitOutcome} {pool : Nat} (hmgr : out.mgr = true)
    (hpool : out.pool = some pool) (hmutex : out.mutex = .PJ_SUCCESS)
    (hfailed : (init_codec ((m.set_pool pool).set_lock out.lock) cfg out).1 ≠ .PJ_SUCCESS) :
    InitFailed m out (init_codec ((m.set_pool pool).set_lock out.lock) cfg out).2 := by
  rw [init_codec] at hfailed ⊢
  by_cases hformat : out.format = .PJ_SUCCESS
  · rw [if_neg (not_not.mpr hformat)] at hfailed ⊢
    by_cases hmatch : out.fmt_match_cb ≠ .PJ_SUCCESS ∧ out.fmt_match_cb ≠ .PJ_EEXISTS
    · rw [if_pos hmatch]
      have hout : ¬ LookupFails out := fun h => h.fmt_match_cb.elim hmatch.1 hmatch.2
      exact ⟨⟨_, rfl, .registering hout pool⟩, hcodec, hdev, hinited, rfl, rfl⟩
    · rw [if_neg hmatch] at hfailed ⊢
      by_cases hfactory : out.codec_factory = .PJ_SUCCESS
      · rw [if_neg (not_not.mpr hfactory), init_devices] at hfailed ⊢
        by_cases hdevice : out.dev_factory = .PJ_SUCCESS
        · rw [if_neg (not_not.mpr hdevice)] at hfailed ⊢
          by_cases hlookup : out.lookup = .PJ_SUCCESS
          · rw [if_neg (not_not.mpr hlookup)] at hfailed
            exact absurd rfl hfailed
          · rw [if_pos hlookup]
            have hout : LookupFails out := by
              refine ⟨hmgr, ?_, hmutex, hformat, ?_, hfactory, hdevice, hlookup⟩
              · rw [hpool]
                exact Option.some_ne_none pool
              · rwa [not_and_or, not_not, not_not] at hmatch
            exact ⟨⟨_, rfl, .lookup hout pool⟩, rfl, rfl, rfl, rfl, rfl⟩
        · rw [if_pos hdevice]
          exact ⟨⟨_, rfl, .dev_factory (fun h => hdevice h.dev_factory) pool⟩, rfl, hdev, hinited, rfl, rfl⟩
      · rw [if_pos hfactory]
        exact ⟨⟨_, rfl, .registering (fun h => hfactory h.codec_factory) pool⟩, hcodec, hdev, hinited, rfl, rfl⟩
  · rw [if_pos hformat]
    exact ⟨⟨_, rfl, .registering (fun h => hformat h.format) pool⟩, hcodec, hdev, hinited, rfl, rfl⟩

/-- Every way in which `pjrs_vpt_init` fails, from an idle module and with a valid
    configuration. The outcome says which of the calls it makes comes to an error,
    and the callbacks may be any. -/
theorem pjrs_vpt_init_failed {m : Module} (hidle : m.Idle) {cfg : pjrs_vpt_config} (hvalid : cfg_valid cfg = true)
    (cb : pjrs_vpt_callbacks) (out : InitOutcome) (hfailed : (pjrs_vpt_init m cfg cb out).1 ≠ .PJ_SUCCESS) :
    InitFailed m out (pjrs_vpt_init m cfg cb out).2 := by
  have hfree : ¬ m.vpt.inited = true := by simp [hidle.inited]
  rw [pjrs_vpt_init, if_neg hfree, if_neg (by simp [hvalid])] at hfailed ⊢
  cases hmgr : out.mgr with
  | false =>
    have hout : ¬ LookupFails out := fun h => Bool.false_ne_true (hmgr.symm.trans h.mgr)
    exact ⟨⟨[], rfl, .early hout⟩, hidle⟩
  | true =>
    rw [hmgr, if_neg (by decide)] at hfailed
    rw [if_neg (by decide)]
    dsimp only at hfailed ⊢
    cases hpool : out.pool with
    | none =>
      have hout : ¬ LookupFails out := fun h => h.pool hpool
      exact ⟨⟨[], rfl, .early hout⟩, hidle.codec_registered, hidle.dev_registered, rfl, rfl, rfl⟩
    | some pool =>
      rw [hpool] at hfailed
      dsimp only at hfailed ⊢
      by_cases hmutex : out.mutex = .PJ_SUCCESS
      · rw [if_neg (not_not.mpr hmutex)] at hfailed ⊢
        have hrest := init_codec_failed (m := { m with vpt := vpt_state.configured cfg cb }) hidle.codec_registered
          hidle.dev_registered rfl cfg hmgr hpool hmutex hfailed
        exact ⟨hrest.calls, hrest.idle⟩
      · rw [if_pos hmutex]
        have hout : ¬ LookupFails out := fun h => hmutex h.mutex
        exact ⟨⟨_, rfl, .mutex hout pool⟩, hidle.codec_registered, hidle.dev_registered, rfl, rfl, rfl⟩

/-- Whichever way it fails, the pool is given back. -/
theorem FailedCalls.pool {out : InitOutcome} {calls : List PjCall} (hcalls : FailedCalls out calls) (pool : Nat) :
    GivenBack calls (.pj_pool_create pool) (.pj_pool_release (some pool)) PjCall.uses_pool := by
  cases hcalls with
  | early => exact ⟨rfl, List.Pairwise.nil⟩
  | mutex _ created | registering _ created | dev_factory _ created | lookup _ created =>
    refine ⟨?_, ?_⟩
    · by_cases hpool : pool = created <;> simp [hpool, eq_comm]
    · simp [PjCall.uses_pool]

/-- A lock that a failed initialisation made is destroyed once and not used after. -/
theorem FailedCalls.lock {out : InitOutcome} {calls : List PjCall} (hcalls : FailedCalls out calls) (lock : Nat) :
    GivenBack calls (.pj_mutex_create lock) (.pj_mutex_destroy lock) PjCall.uses_lock := by
  cases hcalls with
  | early => exact ⟨rfl, List.Pairwise.nil⟩
  | mutex => exact ⟨by simp, by simp⟩
  | registering | dev_factory | lookup =>
    refine ⟨?_, ?_⟩
    · by_cases hlock : lock = out.lock <;> simp [hlock, eq_comm]
    · simp [PjCall.uses_lock]

/-- Only where a device is not found does the cleanup release a pool that is gone
    already. -/
theorem FailedCalls.release_null_iff {out : InitOutcome} {calls : List PjCall} (hcalls : FailedCalls out calls) :
    .pj_pool_release none ∈ calls ↔ LookupFails out := by
  cases hcalls with
  | early hout | mutex hout | registering hout | dev_factory hout => simp [hout]
  | lookup hout => simp [hout]

/-- Where a lookup of the devices fails, so does the initialisation, although both
    factories are registered by then. -/
theorem LookupFails.failed {out : InitOutcome} (hout : LookupFails out) {m : Module} (hidle : m.Idle)
    {cfg : pjrs_vpt_config} (hvalid : cfg_valid cfg = true) (cb : pjrs_vpt_callbacks) :
    (pjrs_vpt_init m cfg cb out).1 ≠ .PJ_SUCCESS := by
  obtain ⟨hmgr, hpool, hmutex, hformat, hmatch, hfactory, hdevice, hlookup⟩ := hout
  obtain ⟨pool, hcreated⟩ := Option.ne_none_iff_exists'.mp hpool
  have hmatch' : ¬ (out.fmt_match_cb ≠ .PJ_SUCCESS ∧ out.fmt_match_cb ≠ .PJ_EEXISTS) := by
    rwa [not_and_or, not_not, not_not]
  simp only [pjrs_vpt_init, hidle.inited, hvalid, hmgr, hcreated, hmutex, init_codec, hformat, hmatch', hfactory,
    init_devices, hdevice, hlookup, ne_eq, not_true_eq_false, if_false, Bool.not_true, Bool.false_eq_true, if_true,
    not_false_eq_true]

end pjsua_rust.video_passthrough

namespace pjsua_rust.video

open video_passthrough

/-- The destroy operation of the device factory gives the lock and the pool up. -/
theorem vd_factory_destroy_vpt (m : Module) :
    (vd_factory_destroy m).vpt = { m.vpt with lock := none, pool := none, inited := false } := by
  unfold vd_factory_destroy Module.destroy_lock
  cases m.vpt.lock <;> cases hpool : m.vpt.pool <;> simp only [Module.call, hpool]

theorem VideoPassthrough.install_module (p : Process) (config : PassthroughConfig) (out : InitOutcome) :
    (VideoPassthrough.install p config out).2.module =
      (pjrs_vpt_init p.module (c_config config) install_callbacks out).2 := by
  unfold VideoPassthrough.install
  dsimp only
  cases check_status (pjrs_vpt_init p.module (c_config config) install_callbacks out).1 <;> rfl

/-- An initialisation of an idle module initialises it or leaves it idle, also if it
    fails at its last call. -/
theorem idle_of_init {m : Module} (hidle : m.Idle) (cfg : pjrs_vpt_config) (cb : pjrs_vpt_callbacks)
    (out : InitOutcome) (hinited : (pjrs_vpt_init m cfg cb out).2.vpt.inited = false) :
    (pjrs_vpt_init m cfg cb out).2.Idle := by
  cases hvalid : cfg_valid cfg with
  | false =>
    rw [pjrs_vpt_init, if_neg (by simp [hidle.inited]), if_pos (by simp [hvalid])]
    exact hidle
  | true =>
    by_cases hstatus : (pjrs_vpt_init m cfg cb out).1 = .PJ_SUCCESS
    · obtain ⟨-, -, -, pool, hvpt⟩ := pjrs_vpt_init_success (Prod.ext hstatus rfl)
      rw [hvpt] at hinited
      cases hinited
    · exact (pjrs_vpt_init_failed hidle hvalid cb out hstatus).idle

/-- The module is idle whenever it is not initialised, in every run of installs,
    reconfigurations and the end of PJSUA. So the next install finds nothing of an
    earlier one. -/
theorem idle_of_not_inited {p : Process} (hreach : installs.Reach (fun _ _ => True) p)
    (hinited : p.module.vpt.inited = false) : p.module.Idle := by
  refine hreach.invariant (P := fun p => p.module.vpt.inited = false → p.module.Idle) ?_ ?_ hinited
  · exact fun _ => ⟨rfl, rfl, rfl, rfl, rfl⟩
  · intro p op p' _ _ hstep ih hinited'
    cases op with
    | destroy =>
      cases hstep
      have hvpt := vd_factory_destroy_vpt p.module
      refine ⟨rfl, rfl, hinited', ?_, ?_⟩
      · change (vd_factory_destroy p.module).vpt.lock = none
        rw [hvpt]
      · change (vd_factory_destroy p.module).vpt.pool = none
        rw [hvpt]
    | install config out =>
      simp only [installs, Option.some.injEq] at hstep
      subst hstep
      rw [VideoPassthrough.install_module] at hinited' ⊢
      cases hbefore : p.module.vpt.inited with
      | true =>
        rw [pjrs_vpt_init_of_inited hbefore, hbefore] at hinited'
        cases hinited'
      | false => exact idle_of_init (ih hbefore) _ _ out hinited'

/-- A failed initialisation of a module that is not in use cleans up after itself
    unless it fails on the lookup of its devices: there the device factory's destroy
    operation has cleaned up already, and `pj_pool_release` is called with no pool.
    The module may have been in use before, and every call into PJMEDIA may fail;
    the configuration is assumed to be valid, since another one is refused before
    anything is allocated. -/
theorem pjrs_vpt_init_cleans_up_iff {p : Process} (hreach : installs.Reach (fun _ _ => True) p)
    (hinited : p.module.vpt.inited = false) {cfg : pjrs_vpt_config} (hvalid : cfg_valid cfg = true)
    (cb : pjrs_vpt_callbacks) (out : InitOutcome) :
    ((pjrs_vpt_init p.module cfg cb out).1 ≠ .PJ_SUCCESS →
      CleanedUp p.module (pjrs_vpt_init p.module cfg cb out).2) ↔ ¬ LookupFails out := by
  have hidle := idle_of_not_inited hreach hinited
  constructor
  · intro hcleaned hout
    have hfailed := hout.failed hidle hvalid cb
    obtain ⟨calls, hcalls, hmade⟩ := (pjrs_vpt_init_failed hidle hvalid cb out hfailed).calls
    apply (hcleaned hfailed).returns
    rw [made_of_calls hcalls]
    exact hmade.release_null_iff.mpr hout
  · intro hout hfailed
    obtain ⟨⟨calls, hcalls, hmade⟩, hcodec, hdev, hinited', hlock, hpool⟩ :=
      pjrs_vpt_init_failed hidle hvalid cb out hfailed
    have hcalls := made_of_calls hcalls
    refine ⟨?_, ?_, ?_, hcodec, hdev, hinited', hlock, hpool⟩
    · rw [hcalls, hmade.release_null_iff]
      exact hout
    · rw [hcalls]
      exact hmade.pool
    · rw [hcalls]
      exact hmade.lock

/-- A device factory that is refused leaves nothing behind. -/
theorem pjrs_vpt_init_cleans_up_iff_no_dev_factory :
    CleanedUp .zero (pjrs_vpt_init .zero (c_config {}) install_callbacks { dev_factory := .PJ_ENOMEM }).2 :=
  (pjrs_vpt_init_cleans_up_iff (p := installs.start) .start rfl (by decide) install_callbacks
    { dev_factory := .PJ_ENOMEM }).mpr (fun h => absurd h.dev_factory (by decide)) (by decide)

/-- With the render device not found, the cleanup releases no pool. The pool was
    released before, by the destroy operation of the device factory. -/
theorem not_pjrs_vpt_init_cleans_up :
    ¬ ∀ (p : Process) (cfg : pjrs_vpt_config) (cb : pjrs_vpt_callbacks) (out : InitOutcome),
      installs.Reach (fun _ _ => True) p → p.module.vpt.inited = false → cfg_valid cfg = true →
      (pjrs_vpt_init p.module cfg cb out).1 ≠ .PJ_SUCCESS →
      CleanedUp p.module (pjrs_vpt_init p.module cfg cb out).2 := by
  intro hclaim
  have hcleaned := hclaim installs.start (c_config {}) install_callbacks { render_lookup := .PJ_ERROR 520005 } .start
    rfl (by decide) (by decide)
  exact absurd hcleaned.returns (by decide)

end pjsua_rust.video
