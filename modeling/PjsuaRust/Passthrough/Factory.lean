import PjsuaRust.Passthrough.Codec
import PjsuaRust.Passthrough.DefaultAttr
import PjsuaRust.Passthrough.Device
import PjsuaRust.Video.Cleanup

open pjsua_rust.video transition

namespace pjsua_rust.video_passthrough

def PJMEDIA_FORMAT_PACK (a b c d : UInt8) : UInt32 :=
  d.toUInt32 <<< 24 ||| c.toUInt32 <<< 16 ||| b.toUInt32 <<< 8 ||| a.toUInt32

def PJRS_FORMAT_AUH4 : UInt32 := PJMEDIA_FORMAT_PACK 0x41 0x55 0x48 0x34

def PJMEDIA_FORMAT_H264 : UInt32 := PJMEDIA_FORMAT_PACK 0x48 0x32 0x36 0x34

def CLOCK_RATE : UInt32 := 90000

structure pjmedia_ratio where
  num : UInt32
  denum : UInt32
deriving DecidableEq, Repr

/-- A format, with the detail of a video format if it has one. -/
structure pjmedia_format where
  id : UInt32
  vid : Option (UInt32 × UInt32 × pjmedia_ratio)
deriving DecidableEq, Repr

def pjmedia_format_init_video (id width height fps_num fps_denum : UInt32) : pjmedia_format where
  id
  vid := some (width, height, ⟨fps_num, fps_denum⟩)

/-- What the codec factory says of its codec. -/
structure pjmedia_vid_codec_info where
  fmt_id : UInt32
  pt : UInt32
  encoding_name : String
  encoding_desc : String
  clock_rate : UInt32
  dir : pjmedia_dir
  dec_fmt_id : List UInt32
  fps : List pjmedia_ratio
deriving DecidableEq, Repr

/-- `PJMEDIA_CODEC_EUNSUP`, for a codec that is not this factory's. -/
def PJMEDIA_CODEC_EUNSUP : pj_status_t := .PJ_ERROR 220080

def vc_test_alloc (vpt : vpt_state) (info : pjmedia_vid_codec_info) : pj_status_t :=
  if info.fmt_id = PJMEDIA_FORMAT_H264 ∧ info.pt = vpt.cfg.pt then .PJ_SUCCESS else PJMEDIA_CODEC_EUNSUP

/-- `vc_enum_info`, from its copy of the configuration, with room for `count`
    infos. -/
def vc_enum_info (cfg : pjrs_vpt_config) (count : Nat) : Except pj_status_t (List pjmedia_vid_codec_info) :=
  if count = 0 then .error .PJ_EINVAL
  else .ok [{
    fmt_id := PJMEDIA_FORMAT_H264
    pt := cfg.pt
    encoding_name := "H264"
    encoding_desc := "H.264 passthrough"
    clock_rate := CLOCK_RATE
    dir := ⟨true, true⟩
    dec_fmt_id := [PJRS_FORMAT_AUH4]
    fps := [⟨cfg.poll_fps, 1⟩] }]

/-- `DEV_CAPTURE` and `DEV_RENDER` are the indices 0 and 1. -/
inductive DevDir where
  | CAPTURE
  | RENDER
deriving DecidableEq, Repr

def DEV_CAPTURE : Nat := 0

/-- What a device says of itself: what it reports of the configuration, with its
    name and direction. -/
structure vid_dev_info where
  name : String
  driver : String
  dir : DevDir
  fmt : List pjmedia_format
deriving DecidableEq, Repr

def vid_dev_info.of (info : pjmedia_vid_dev_info) (name : String) (dir : DevDir) : vid_dev_info where
  name
  driver := "Passthrough"
  dir
  fmt := [pjmedia_format_init_video PJRS_FORMAT_AUH4 info.width info.height info.fps 1]

/-- `df->info`. -/
def vpt_dev_factory.info (df : vpt_dev_factory) : List vid_dev_info :=
  [.of df.capture "Passthrough capture" .CAPTURE, .of df.render "Passthrough render" .RENDER]

inductive EvidError where
  | PJMEDIA_EVID_INVDEV
  | PJMEDIA_EVID_BADFORMAT
  | PJ_ENOMEM
deriving DecidableEq, Repr

def vd_factory_get_dev_info (df : vpt_dev_factory) (index : Nat) : Except EvidError vid_dev_info :=
  match df.info[index]? with
  | none => .error .PJMEDIA_EVID_INVDEV
  | some info => .ok info

def PJMEDIA_VID_INVALID_DEV : Int := -3

structure pjmedia_vid_dev_param where
  dir : DevDir
  cap_id : Int
  rend_id : Int
  clock_rate : UInt32
  fmt : pjmedia_format
deriving DecidableEq, Repr

/-- `vd_factory_default_param`. Every info has the one format that is copied. -/
def vd_factory_default_param (df : vpt_dev_factory) (index : Nat) : Except EvidError pjmedia_vid_dev_param :=
  match df.info[index]? with
  | none => .error .PJMEDIA_EVID_INVDEV
  | some info =>
    .ok {
      dir := info.dir
      cap_id := if index = DEV_CAPTURE then index else PJMEDIA_VID_INVALID_DEV
      rend_id := if index = DEV_CAPTURE then PJMEDIA_VID_INVALID_DEV else index
      clock_rate := CLOCK_RATE
      fmt := info.fmt.headD ⟨0, none⟩ }

/-- `PJMEDIA_SPF2` for one channel, a macro of PJMEDIA: the samples in a frame are
    the clock rate times the denominator of the frame rate over its numerator, with
    the product in 64 bits. -/
def PJMEDIA_SPF2 (clock_rate : UInt32) (fr : pjmedia_ratio) : UInt32 :=
  UInt32.ofNat (clock_rate.toNat * fr.denum.toNat / fr.num.toNat)

/-- A stream of a device, with what it was opened with. -/
structure DevStream where
  param : pjmedia_vid_dev_param
  clock : vpt_stream
deriving DecidableEq, Repr

def vd_factory_create_stream (param : pjmedia_vid_dev_param) (pool : Option Nat) : Except EvidError DevStream :=
  if param.fmt.id ≠ PJRS_FORMAT_AUH4 then .error .PJMEDIA_EVID_BADFORMAT
  else
    match param.fmt.vid with
    | none => .error .PJMEDIA_EVID_BADFORMAT
    | some (_, _, fps) =>
      if fps.num = 0 then .error .PJMEDIA_EVID_BADFORMAT
      else
        match pool with
        | none => .error .PJ_ENOMEM
        | some _ => .ok { param, clock := { ts := 0, ts_inc := PJMEDIA_SPF2 param.clock_rate fps } }

/-- The module, with what PJMEDIA has fetched from its factories since it was
    initialised, and the configurations that were in force since then. -/
structure Registry where
  module : Module
  in_force : List pjrs_vpt_config
  infos : List pjmedia_vid_codec_info
  dev_infos : List vid_dev_info
  params : List pjmedia_vid_dev_param

inductive RegistryOp where
  | init (cfg : pjrs_vpt_config) (cb : pjrs_vpt_callbacks) (out : InitOutcome)
  | reconfigure (cfg : pjrs_vpt_config) (out : ReconfigureOutcome)
  | source_restarted
  | set_keyed (epoch : UInt32)
  | destroy
  | enum_info (count : Nat)
  | dev_info (index : Nat)
  | default_param (index : Nat)

/-- One call. PJMEDIA calls a factory only while the module is initialised; a call
    that is refused fetches nothing. -/
def Registry.step (s : Registry) : RegistryOp → Option Registry
  | .init cfg cb out =>
    let m := (pjrs_vpt_init s.module cfg cb out).2
    if s.module.vpt.inited then some { s with module := m }
    else some { module := m, in_force := [m.vpt.cfg], infos := [], dev_infos := [], params := [] }
  | .reconfigure cfg out =>
    let m := (pjrs_vpt_reconfigure s.module cfg out).2
    some { s with module := m, in_force := m.vpt.cfg :: s.in_force }
  | .source_restarted => some { s with module := { s.module with vpt := pjrs_vpt_source_restarted s.module.vpt } }
  | .set_keyed epoch => some { s with module := { s.module with vpt := set_keyed s.module.vpt epoch } }
  | .destroy =>
    some { s with
      module := { vd_factory_destroy s.module with codec_registered := false, dev_registered := false } }
  | .enum_info count =>
    if s.module.vpt.inited then
      match vc_enum_info s.module.vpt.cfg count with
      | .error _ => some s
      | .ok infos => some { s with infos := infos ++ s.infos }
    else none
  | .dev_info index =>
    match s.module.vpt.inited, s.module.vpt.dev_factory with
    | true, some df =>
      match vd_factory_get_dev_info df index with
      | .error _ => some s
      | .ok info => some { s with dev_infos := info :: s.dev_infos }
    | _, _ => none
  | .default_param index =>
    match s.module.vpt.inited, s.module.vpt.dev_factory with
    | true, some df =>
      match vd_factory_default_param df index with
      | .error _ => some s
      | .ok param => some { s with params := param :: s.params }
    | _, _ => none

/-- Nothing has used the module yet. -/
def registry : Machine Registry RegistryOp where
  start := { module := .zero, in_force := [], infos := [], dev_infos := [], params := [] }
  step := Registry.step

/-- Everything an initialised module derives from its configuration. -/
structure Derived (vpt : vpt_state) : Prop where
  valid : cfg_valid vpt.cfg = true
  framebytes : vpt.framebytes = UInt32.ofNat AU_HDR_SIZE + vpt.cfg.max_frame_size
  fmtp : ∀ value, vpt.fmtp value = value.value vpt.cfg
  dev_factory : vpt.dev_factory = some (fill_dev_infos vpt.cfg)
  source_epoch : vpt.source_epoch ≠ 0
  lock : vpt.lock ≠ none
  pool : vpt.pool ≠ none

/-- A valid configuration with the sizes and the payload type of another one: a
    reconfiguration changes neither. -/
structure SameStreams (now cfg : pjrs_vpt_config) : Prop where
  valid : cfg_valid cfg = true
  pt : cfg.pt = now.pt
  max_frame_size : cfg.max_frame_size = now.max_frame_size

/-- Each thing fetched is what one of the configurations says. -/
structure Registry.Fetched (s : Registry) (in_force : List pjrs_vpt_config) : Prop where
  infos : ∀ info ∈ s.infos, ∃ cfg ∈ in_force, vc_enum_info cfg 1 = .ok [info]
  dev_infos : ∀ info ∈ s.dev_infos, ∃ cfg ∈ in_force, info ∈ (fill_dev_infos cfg).info
  params : ∀ param ∈ s.params, ∃ cfg ∈ in_force, ∃ index,
    vd_factory_default_param (fill_dev_infos cfg) index = .ok param

/-- What holds of an initialised module and of what was fetched from it. -/
structure Registry.Sound (s : Registry) : Prop where
  derived : Derived s.module.vpt
  now : s.module.vpt.cfg ∈ s.in_force
  in_force : ∀ cfg ∈ s.in_force, SameStreams s.module.vpt.cfg cfg
  fetched : s.Fetched s.in_force

/-- The strings are the values of a configuration, whatever else the state is. They
    are set all at once, so that no string is left from an earlier configuration. -/
theorem fmtp_eq {vpt : vpt_state} {cfg : pjrs_vpt_config}
    (hstrings : ∃ vpt', vpt.profile_level_id = (set_fmtp_strings vpt' cfg).profile_level_id ∧
      vpt.max_fs = (set_fmtp_strings vpt' cfg).max_fs ∧ vpt.max_mbps = (set_fmtp_strings vpt' cfg).max_mbps ∧
      vpt.max_br = (set_fmtp_strings vpt' cfg).max_br) (value : Fmtp) : vpt.fmtp value = value.value cfg := by
  obtain ⟨vpt', hprofile, hfs, hmbps, hbr⟩ := hstrings
  rw [← fmtp_set_fmtp_strings vpt' cfg value]
  cases value with
  | profile_level_id => exact hprofile
  | max_fs => exact hfs
  | max_mbps => exact hmbps
  | max_br => exact hbr

/-- A successful initialisation derives everything from the configuration it was
    given. -/
theorem derived_of_init {m m' : Module} {cfg : pjrs_vpt_config} {cb : pjrs_vpt_callbacks} {out : InitOutcome}
    (hinit : pjrs_vpt_init m cfg cb out = (.PJ_SUCCESS, m')) : m'.vpt.cfg = cfg ∧ Derived m'.vpt := by
  obtain ⟨-, hvalid, -, pool, hvpt⟩ := pjrs_vpt_init_success hinit
  rw [hvpt]
  refine ⟨rfl, hvalid, rfl, fmtp_eq ⟨vpt_state.zero, rfl, rfl, rfl, rfl⟩, rfl, (by decide : (1 : UInt32) ≠ 0), ?_, ?_⟩
  · exact Option.some_ne_none out.lock
  · exact Option.some_ne_none pool

/-- So does a reconfiguration, which keeps what open streams depend on. -/
theorem Derived.replace_cfg {vpt : vpt_state} (hderived : Derived vpt) {cfg : pjrs_vpt_config}
    (haccepts : accepts vpt cfg = true) : Derived (replace_cfg vpt cfg) ∧ SameStreams cfg vpt.cfg := by
  simp only [accepts, Bool.and_eq_true, beq_iff_eq] at haccepts
  obtain ⟨⟨⟨-, hvalid⟩, hsize⟩, hpt⟩ := haccepts
  refine ⟨⟨hvalid, ?_, fmtp_eq ⟨vpt, rfl, rfl, rfl, rfl⟩, rfl, hderived.source_epoch, hderived.lock, hderived.pool⟩,
    hderived.valid, hpt.symm, hsize.symm⟩
  exact hderived.framebytes.trans (congrArg _ hsize.symm)

/-- Nothing is derived from the epochs. -/
theorem Derived.epochs {vpt : vpt_state} (hderived : Derived vpt) {source_epoch : UInt32} (hsource : source_epoch ≠ 0)
    (keyed_epoch : UInt32) : Derived { vpt with source_epoch, keyed_epoch } where
  valid := hderived.valid
  framebytes := hderived.framebytes
  fmtp value := by
    rw [← hderived.fmtp value]
    cases value <;> rfl
  dev_factory := hderived.dev_factory
  source_epoch := hsource
  lock := hderived.lock
  pool := hderived.pool

section

variable {s : Registry} (hs : s.Sound)
include hs

/-- A module with what a new configuration derives, if open streams can keep to it.
    What was fetched under the configurations before stays what it was. -/
theorem Registry.Sound.replaced {m : Module} (hderived : Derived m.vpt) (hsame : SameStreams m.vpt.cfg s.module.vpt.cfg) :
    Registry.Sound { s with module := m, in_force := m.vpt.cfg :: s.in_force } where
  derived := hderived
  now := List.mem_cons_self
  in_force cfg hcfg := by
    rcases List.mem_cons.mp hcfg with rfl | hcfg
    · exact ⟨hderived.valid, rfl, rfl⟩
    · obtain ⟨hvalid, hpt, hsize⟩ := hs.in_force cfg hcfg
      exact ⟨hvalid, hpt.trans hsame.pt, hsize.trans hsame.max_frame_size⟩
  fetched :=
    { infos := fun info hinfo => (hs.fetched.infos info hinfo).imp fun _ h => h.imp_left (List.mem_cons_of_mem _)
      dev_infos := fun info hinfo =>
        (hs.fetched.dev_infos info hinfo).imp fun _ h => h.imp_left (List.mem_cons_of_mem _)
      params := fun param hparam =>
        (hs.fetched.params param hparam).imp fun _ h => h.imp_left (List.mem_cons_of_mem _) }

/-- A module with other epochs: neither what was fetched nor what is derived looks
    at them. -/
theorem Registry.Sound.epochs {vpt : vpt_state} (hderived : Derived vpt) (hcfg : vpt.cfg = s.module.vpt.cfg) :
    Registry.Sound { s with module := { s.module with vpt } } where
  derived := hderived
  now := by
    dsimp only
    rw [hcfg]
    exact hs.now
  in_force cfg hmem := by
    dsimp only
    rw [hcfg]
    exact hs.in_force cfg hmem
  fetched := ⟨hs.fetched.infos, hs.fetched.dev_infos, hs.fetched.params⟩

/-- A reconfiguration that goes through puts one more configuration in force, and
    one that fails changes nothing that was fetched. -/
theorem Registry.Sound.reconfigure (cfg : pjrs_vpt_config) (out : ReconfigureOutcome) :
    Registry.Sound { s with
      module := (pjrs_vpt_reconfigure s.module cfg out).2
      in_force := (pjrs_vpt_reconfigure s.module cfg out).2.vpt.cfg :: s.in_force } := by
  rcases pjrs_vpt_reconfigure_section s.module cfg out with hsame | ⟨haccepts, hvpt⟩
  · apply hs.replaced <;> rw [hsame]
    · exact hs.derived
    · exact ⟨hs.derived.valid, rfl, rfl⟩
  · obtain ⟨hderived, hstreams⟩ := hs.derived.replace_cfg haccepts
    apply hs.replaced <;> rw [hvpt]
    · exact hderived
    · exact hstreams

/-- Whatever is fetched is what the configuration in force says. A fetch that fails,
    for an index or a count that is out of range, adds nothing; no fetch changes the
    module. -/
theorem Registry.Sound.fetch {t : Registry} {op : RegistryOp} (hstep : s.step op = some t)
    (hop : (∃ count, op = .enum_info count) ∨ (∃ index, op = .dev_info index) ∨ ∃ index, op = .default_param index) :
    t.module = s.module ∧ t.Sound := by
  have ⟨hderived, hnow, hforce, hinfos, hdev, hparams⟩ := hs
  rcases hop with ⟨count, rfl⟩ | ⟨index, rfl⟩ | ⟨index, rfl⟩
  · simp only [Registry.step] at hstep
    split at hstep
    · cases hfetched : vc_enum_info s.module.vpt.cfg count with
      | error e =>
        rw [hfetched] at hstep
        cases hstep
        exact ⟨rfl, hs⟩
      | ok infos =>
        rw [hfetched] at hstep
        cases hstep
        refine ⟨rfl, hderived, hnow, hforce, fun info hinfo => ?_, hdev, hparams⟩
        rcases List.mem_append.mp hinfo with hnew | hold
        · unfold vc_enum_info at hfetched
          split at hfetched
          · cases hfetched
          · cases hfetched
            cases List.mem_singleton.mp hnew
            exact ⟨_, hnow, rfl⟩
        · exact hinfos info hold
    · cases hstep
  · simp only [Registry.step, hderived.dev_factory] at hstep
    split at hstep
    · rename_i df _ hdf
      cases hdf
      cases hfetched : vd_factory_get_dev_info (fill_dev_infos s.module.vpt.cfg) index with
      | error e =>
        rw [hfetched] at hstep
        cases hstep
        exact ⟨rfl, hs⟩
      | ok info =>
        rw [hfetched] at hstep
        cases hstep
        refine ⟨rfl, hderived, hnow, hforce, hinfos, fun info' hinfo' => ?_, hparams⟩
        rcases List.mem_cons.mp hinfo' with rfl | hold
        · unfold vd_factory_get_dev_info at hfetched
          split at hfetched
          · cases hfetched
          · rename_i hget
            cases hfetched
            exact ⟨_, hnow, List.mem_of_getElem? hget⟩
        · exact hdev info' hold
    · cases hstep
  · simp only [Registry.step, hderived.dev_factory] at hstep
    split at hstep
    · rename_i df _ hdf
      cases hdf
      cases hfetched : vd_factory_default_param (fill_dev_infos s.module.vpt.cfg) index with
      | error e =>
        rw [hfetched] at hstep
        cases hstep
        exact ⟨rfl, hs⟩
      | ok param =>
        rw [hfetched] at hstep
        cases hstep
        refine ⟨rfl, hderived, hnow, hforce, hinfos, hdev, fun param' hparam' => ?_⟩
        rcases List.mem_cons.mp hparam' with rfl | hold
        · exact ⟨_, hnow, index, hfetched⟩
        · exact hparams param' hold
    · cases hstep

end

/-- What a run leaves: a sound registry, or a module that is not in use. -/
structure Registry.Coherent (s : Registry) : Prop where
  sound : s.module.vpt.inited = true → s.Sound
  idle : s.module.vpt.inited = false → s.module.Idle

/-- An initialisation of an idle module that leaves it initialised went through. -/
theorem success_of_inited {m : Module} (hidle : m.Idle) {cfg : pjrs_vpt_config} {cb : pjrs_vpt_callbacks}
    {out : InitOutcome} (hinited : (pjrs_vpt_init m cfg cb out).2.vpt.inited = true) :
    (pjrs_vpt_init m cfg cb out).1 = .PJ_SUCCESS := by
  cases hvalid : cfg_valid cfg with
  | false =>
    rw [pjrs_vpt_init, if_neg (by simp [hidle.inited]), if_pos (by simp [hvalid]), hidle.inited] at hinited
    cases hinited
  | true =>
    by_contra hfailed
    have hleft := (pjrs_vpt_init_failed hidle hvalid cb out hfailed).idle.inited
    rw [hinited] at hleft
    cases hleft

/-- The steps of an initialised module. A second initialisation is refused and
    changes nothing, and only the factory's destroy ends the use of the module. -/
theorem Registry.Sound.step {s t : Registry} {op : RegistryOp} (hs : s.Sound) (hinited : s.module.vpt.inited = true)
    (hstep : s.step op = some t) : t.Coherent := by
  cases op with
  | init cfg cb out =>
    simp only [Registry.step, hinited, if_true, pjrs_vpt_init_of_inited hinited, Option.some.injEq] at hstep
    subst hstep
    exact ⟨fun _ => hs, fun hnot => absurd hinited (by rw [hnot]; decide)⟩
  | reconfigure cfg out =>
    cases hstep
    refine ⟨fun _ => hs.reconfigure cfg out, fun hnot => ?_⟩
    have hkept : (pjrs_vpt_reconfigure s.module cfg out).2.vpt.inited = s.module.vpt.inited := by
      rcases pjrs_vpt_reconfigure_section s.module cfg out with hsame | ⟨-, hvpt⟩
      · rw [hsame]
      · rw [hvpt]
        rfl
    exact absurd (hkept.trans hinited) (by rw [hnot]; decide)
  | source_restarted =>
    cases hstep
    have hepoch := source_epoch_restarted_ne_zero hinited
    obtain ⟨epoch, hrestarted⟩ := pjrs_vpt_source_restarted_eq s.module.vpt
    rw [hrestarted] at hepoch ⊢
    refine ⟨fun _ => hs.epochs (hs.derived.epochs hepoch _) rfl, fun hnot => ?_⟩
    exact absurd hinited (by rw [show s.module.vpt.inited = false from hnot]; decide)
  | set_keyed epoch =>
    cases hstep
    refine ⟨fun _ => hs.epochs (hs.derived.epochs hs.derived.source_epoch epoch) rfl, fun hnot => ?_⟩
    exact absurd hinited (by rw [show s.module.vpt.inited = false from hnot]; decide)
  | destroy =>
    cases hstep
    have hvpt := vd_factory_destroy_vpt s.module
    refine ⟨fun hin => ?_, fun _ => ⟨rfl, rfl, ?_, ?_, ?_⟩⟩
    · dsimp only at hin
      rw [hvpt] at hin
      cases hin
    all_goals
      dsimp only
      rw [hvpt]
  | enum_info count =>
    obtain ⟨hmodule, ht⟩ := hs.fetch hstep (.inl ⟨count, rfl⟩)
    exact ⟨fun _ => ht, fun hnot => absurd hinited (by rw [← hmodule, hnot]; decide)⟩
  | dev_info index =>
    obtain ⟨hmodule, ht⟩ := hs.fetch hstep (.inr (.inl ⟨index, rfl⟩))
    exact ⟨fun _ => ht, fun hnot => absurd hinited (by rw [← hmodule, hnot]; decide)⟩
  | default_param index =>
    obtain ⟨hmodule, ht⟩ := hs.fetch hstep (.inr (.inr ⟨index, rfl⟩))
    exact ⟨fun _ => ht, fun hnot => absurd hinited (by rw [← hmodule, hnot]; decide)⟩

/-- The steps of a module that is not in use: only an initialisation changes that,
    and what was fetched before it counts no more. -/
theorem Registry.step_idle {s t : Registry} {op : RegistryOp} (hidle : s.module.Idle)
    (hstep : s.step op = some t) : t.Coherent := by
  have hidle' (hsame : t.module = s.module) : t.Coherent := by
    refine ⟨fun hin => ?_, fun _ => hsame ▸ hidle⟩
    rw [hsame, hidle.inited] at hin
    cases hin
  cases op with
  | init cfg cb out =>
    simp only [Registry.step, hidle.inited, Bool.false_eq_true, if_false, Option.some.injEq] at hstep
    subst hstep
    refine ⟨fun hin => ?_, fun hnot => idle_of_init hidle cfg cb out hnot⟩
    obtain ⟨hcfg, hderived⟩ := derived_of_init (Prod.ext (success_of_inited hidle hin) rfl)
    refine ⟨hderived, List.mem_singleton_self _, fun c hc => ?_, ⟨nofun, nofun, nofun⟩⟩
    rw [List.mem_singleton.mp hc]
    exact ⟨hderived.valid, rfl, rfl⟩
  | reconfigure cfg out =>
    cases hstep
    apply hidle'
    rw [pjrs_vpt_reconfigure, if_pos (by simp [hidle.inited])]
  | source_restarted =>
    cases hstep
    apply hidle'
    rw [pjrs_vpt_source_restarted, if_neg (by simp [hidle.inited])]
  | set_keyed epoch =>
    cases hstep
    refine ⟨fun hin => ?_, fun _ => ⟨hidle.codec_registered, hidle.dev_registered, hidle.inited, hidle.lock, hidle.pool⟩⟩
    rw [set_keyed_inited, hidle.inited] at hin
    cases hin
  | destroy =>
    cases hstep
    have hvpt := vd_factory_destroy_vpt s.module
    refine ⟨fun hin => ?_, fun _ => ⟨rfl, rfl, ?_, ?_, ?_⟩⟩
    · dsimp only at hin
      rw [hvpt] at hin
      cases hin
    all_goals
      dsimp only
      rw [hvpt]
  | enum_info count =>
    rw [Registry.step, hidle.inited] at hstep
    cases hstep
  | dev_info index =>
    rw [Registry.step, hidle.inited] at hstep
    cases hstep
  | default_param index =>
    rw [Registry.step, hidle.inited] at hstep
    cases hstep

/-- Every reachable registry is coherent: the calls come in any order, and every one
    of them may fail. -/
theorem Registry.coherent_of_reach {s : Registry} (hreach : registry.Reach (fun _ _ => True) s) : s.Coherent := by
  refine hreach.invariant (P := Registry.Coherent)
    ⟨fun h => (by cases h), fun _ => ⟨rfl, rfl, rfl, rfl, rfl⟩⟩ ?_
  intro s op t _ _ hstep ih
  cases hinited : s.module.vpt.inited with
  | true => exact (ih.sound hinited).step hinited hstep
  | false => exact Registry.step_idle (ih.idle hinited) hstep

/-- The parameters a device of a valid configuration gives out are accepted when
    they come back, with that configuration's period. -/
theorem create_stream_of_default_param {cfg : pjrs_vpt_config} (hvalid : cfg_valid cfg = true) {index : Nat}
    {param : pjmedia_vid_dev_param} (hparam : vd_factory_default_param (fill_dev_infos cfg) index = .ok param)
    (pool : Nat) : vd_factory_create_stream param (some pool) =
      .ok { param, clock := { ts := 0, ts_inc := UInt32.ofNat (90000 / cfg.poll_fps.toNat) } } := by
  have hfps : cfg.poll_fps ≠ 0 := by
    simp only [cfg_valid, Bool.and_eq_true, bne_iff_ne] at hvalid
    exact hvalid.1.1.2
  have hfmt : param.clock_rate = CLOCK_RATE ∧
      param.fmt = pjmedia_format_init_video PJRS_FORMAT_AUH4 cfg.width cfg.height cfg.poll_fps 1 := by
    unfold vd_factory_default_param at hparam
    split at hparam
    · cases hparam
    · rename_i info hinfo
      cases hparam
      refine ⟨rfl, ?_⟩
      have hmem := List.mem_of_getElem? hinfo
      simp only [vpt_dev_factory.info, List.mem_cons, List.not_mem_nil, or_false] at hmem
      rcases hmem with rfl | rfl <;> rfl
  unfold vd_factory_create_stream
  rw [hfmt.1, hfmt.2]
  simp only [pjmedia_format_init_video, ne_eq, not_true_eq_false, if_false, hfps, PJMEDIA_SPF2,
    show CLOCK_RATE.toNat = 90000 from rfl, show (1 : UInt32).toNat = 1 from rfl, Nat.mul_one]

/-- Whatever PJMEDIA fetched from the factories since the module was initialised is
    good while it is: a codec info still names this codec, and device parameters
    still open a stream, however often and with whatever outcome the module was
    reconfigured in between. Each is in every field what one of the configurations
    in force since then says, not only what the latest one does, and what the
    module itself uses is derived from the one in force now. The calls come in any
    order, and initialisations and reconfigurations may fail. -/
theorem fetched_stays_good {s : Registry} (hreach : registry.Reach (fun _ _ => True) s)
    (hinited : s.module.vpt.inited = true) :
    Derived s.module.vpt ∧
      (∀ info ∈ s.infos, vc_test_alloc s.module.vpt info = .PJ_SUCCESS ∧
        ∃ cfg ∈ s.in_force, vc_enum_info cfg 1 = .ok [info]) ∧
      (∀ info ∈ s.dev_infos, ∃ cfg ∈ s.in_force, info ∈ (fill_dev_infos cfg).info) ∧
      (∀ param ∈ s.params, ∃ cfg ∈ s.in_force,
        (∃ index, vd_factory_default_param (fill_dev_infos cfg) index = .ok param) ∧
        ∀ pool, vd_factory_create_stream param (some pool) =
          .ok { param, clock := { ts := 0, ts_inc := UInt32.ofNat (90000 / cfg.poll_fps.toNat) } }) ∧
      ∀ cfg ∈ s.in_force, SameStreams s.module.vpt.cfg cfg := by
  have hs := (Registry.coherent_of_reach hreach).sound hinited
  refine ⟨hs.derived, fun info hinfo => ?_, hs.fetched.dev_infos, fun param hparam => ?_, hs.in_force⟩
  · obtain ⟨cfg, hcfg, hof⟩ := hs.fetched.infos info hinfo
    have hpt := (hs.in_force cfg hcfg).pt
    refine ⟨?_, cfg, hcfg, hof⟩
    cases hof
    exact if_pos ⟨rfl, hpt⟩
  · obtain ⟨cfg, hcfg, index, hof⟩ := hs.fetched.params param hparam
    exact ⟨cfg, hcfg, ⟨index, hof⟩, create_stream_of_default_param (hs.in_force cfg hcfg).valid hof⟩

/-- The codec and a device are asked for before a reconfiguration that ends without
    a registered codec. -/
def fetched_before : List RegistryOp :=
  [.init cfg_480p {} {}, .enum_info 1, .default_param 0, .reconfigure { cfg_720p with poll_fps := 60 }
    { register := PJ_ENOTFOUND }]

/-- What was fetched before a reconfiguration that left the codec unregistered is
    still good after it. -/
theorem fetched_stays_good_reconfigured :
    ∃ s info param, registry.exec registry.start fetched_before = some s ∧ s.infos = [info] ∧ s.params = [param] ∧
      s.module.codec_registered = false ∧ s.module.vpt.cfg.poll_fps = 60 ∧
      vc_test_alloc s.module.vpt info = .PJ_SUCCESS ∧
      ∃ strm, vd_factory_create_stream param (some 1) = .ok strm := by
  obtain ⟨s, info, param, hs, hinited, hinfos, hparams, hregistered, hpoll⟩ : ∃ s info param,
      registry.exec registry.start fetched_before = some s ∧ s.module.vpt.inited = true ∧ s.infos = [info] ∧
      s.params = [param] ∧ s.module.codec_registered = false ∧ s.module.vpt.cfg.poll_fps = 60 :=
    ⟨_, _, _, rfl, rfl, rfl, rfl, rfl, rfl⟩
  obtain ⟨-, hgood, -, hopen, -⟩ := fetched_stays_good
    (Machine.Reach.exec .start (Machine.admits_of_forall (fun _ _ => trivial) _ _) hs) hinited
  obtain ⟨cfg, -, -, hstream⟩ := hopen param (by rw [hparams]; exact List.mem_singleton_self _)
  exact ⟨s, info, param, hs, hinfos, hparams, hregistered, hpoll,
    (hgood info (by rw [hinfos]; exact List.mem_singleton_self _)).1, _, hstream 1⟩

end pjsua_rust.video_passthrough
