import PjsuaRust.Passthrough.Reconfigure
import PjsuaRust.Pjlib.CString
import PjsuaRust.Transition.Machine

open transition

namespace pjsua_rust.video_passthrough

/-- The fmtp values that are pointers into the module's buffers. -/
inductive Fmtp where
  | profile_level_id
  | max_fs
  | max_mbps
  | max_br
deriving DecidableEq, Repr

/-- The size of the buffer. -/
def Fmtp.size : Fmtp → Nat
  | .profile_level_id => 8
  | _ => 12

/-- What a configuration has written to it. -/
def Fmtp.value (cfg : pjrs_vpt_config) : Fmtp → List UInt8
  | .profile_level_id => fmt_02x cfg.profile_idc ++ fmt_02x cfg.profile_iop ++ fmt_02x cfg.level_idc
  | .max_fs => fmt_u cfg.max_fs.toNat
  | .max_mbps => fmt_u cfg.max_mbps.toNat
  | .max_br => fmt_u cfg.max_br.toNat

def vpt_state.fmtp (vpt : vpt_state) : Fmtp → List UInt8
  | .profile_level_id => vpt.profile_level_id
  | .max_fs => vpt.max_fs
  | .max_mbps => vpt.max_mbps
  | .max_br => vpt.max_br

/-- The parameter set `vc_default_attr` fills, as far as it depends on the
    configuration. `packetization_mode` points to a literal; each value in
    `dec_fmtp` is a pointer into a buffer, with the length found there. -/
structure vid_codec_param where
  width : UInt32
  height : UInt32
  fps : UInt32
  avg_bps : UInt32
  max_bps : UInt32
  packetization_mode : List UInt8
  dec_fmtp : List (Fmtp × Nat)
deriving DecidableEq, Repr

/-- `cfg.packetization_mode ? "1" : "0"`. -/
def mode_value (cfg : pjrs_vpt_config) : List UInt8 := if cfg.packetization_mode ≠ 0 then [0x31] else [0x30]

/-- What `vc_default_attr` takes from its copy of the configuration. -/
def copied_param (cfg : pjrs_vpt_config) : vid_codec_param where
  width := cfg.width
  height := cfg.height
  fps := cfg.poll_fps
  avg_bps := cfg.avg_bps
  max_bps := cfg.max_bps
  packetization_mode := mode_value cfg
  dec_fmtp := []

/-- The values it adds, in order: a limit that is 0 is left out. -/
def dec_fmtp_names (cfg : pjrs_vpt_config) : List Fmtp :=
  [.profile_level_id] ++ (if cfg.max_fs ≠ 0 then [.max_fs] else []) ++
    (if cfg.max_mbps ≠ 0 then [.max_mbps] else []) ++ if cfg.max_br ≠ 0 then [.max_br] else []

/-- Where a `vc_default_attr` and its caller are: before `cur_cfg`, between two
    `pj_str` of the values still to be added, or done, with the caller reading the
    set until it has its own copy. -/
inductive AttrStage where
  | idle
  | entered
  | filling (cfg : pjrs_vpt_config) (todo : List Fmtp) (attr : vid_codec_param)
  | returned (cfg : pjrs_vpt_config) (attr : vid_codec_param)
  | released (attr : vid_codec_param)
deriving DecidableEq, Repr

/-- One caller. `in_force` are the configurations in force during its last
    `vc_default_attr`, and `reads` what it has read from the set. -/
structure AttrCall where
  stage : AttrStage := .idle
  in_force : List pjrs_vpt_config := []
  reads : List (Fmtp × List UInt8) := []
deriving DecidableEq, Repr

structure AttrSystem (ι : Type) where
  vpt : vpt_state
  buf : Fmtp → List UInt8
  call : ι → AttrCall

inductive AttrOp (ι : Type) where
  | reconfigure (cfg : pjrs_vpt_config)
  | enter (i : ι)
  | copy (i : ι)
  | pj_str (i : ι)
  | ret (i : ι)
  | read (i : ι) (value : Fmtp)
  | release (i : ι)

/-- The checks of `pjrs_vpt_reconfigure`. -/
def accepts (vpt : vpt_state) (cfg : pjrs_vpt_config) : Bool :=
  vpt.inited && cfg_valid cfg && cfg.max_frame_size == vpt.cfg.max_frame_size && cfg.pt == vpt.cfg.pt

/-- A new configuration is in force from here on, also for a call in progress. -/
def AttrCall.note (call : AttrCall) (cfg : pjrs_vpt_config) : AttrCall :=
  match call.stage with
  | .entered => { call with in_force := cfg :: call.in_force }
  | .filling .. => { call with in_force := cfg :: call.in_force }
  | _ => call

section System

variable {ι : Type} [DecidableEq ι]

def AttrSystem.set (s : AttrSystem ι) (i : ι) (call : AttrCall) : AttrSystem ι :=
  { s with call := Function.update s.call i call }

/-- The section of `pjrs_vpt_reconfigure` under the lock. -/
def AttrSystem.reconfigure (s : AttrSystem ι) (cfg : pjrs_vpt_config) : AttrSystem ι where
  vpt := replace_cfg s.vpt cfg
  buf value := snprintf_into (s.buf value) (value.value cfg)
  call i := (s.call i).note cfg

/-- One step: a section under the lock, one `pj_str`, or one read by a caller.
    A reconfiguration that fails its checks changes nothing. -/
def AttrSystem.step (s : AttrSystem ι) : AttrOp ι → Option (AttrSystem ι)
  | .reconfigure cfg => if accepts s.vpt cfg then some (s.reconfigure cfg) else some s
  | .enter i =>
    match (s.call i).stage with
    | .idle => some (s.set i { stage := .entered, in_force := [s.vpt.cfg] })
    | .released _ => some (s.set i { stage := .entered, in_force := [s.vpt.cfg] })
    | _ => none
  | .copy i =>
    match (s.call i).stage with
    | .entered =>
      let cfg := s.vpt.cfg
      some (s.set i { s.call i with stage := .filling cfg (dec_fmtp_names cfg) (copied_param cfg) })
    | _ => none
  | .pj_str i =>
    match (s.call i).stage with
    | .filling cfg (value :: todo) attr =>
      let attr := { attr with dec_fmtp := attr.dec_fmtp ++ [(value, strlen (s.buf value))] }
      some (s.set i { s.call i with stage := .filling cfg todo attr })
    | _ => none
  | .ret i =>
    match (s.call i).stage with
    | .filling cfg [] attr => some (s.set i { s.call i with stage := .returned cfg attr })
    | _ => none
  | .read i value =>
    match (s.call i).stage with
    | .returned _ attr =>
      (attr.dec_fmtp.lookup value).map fun len =>
        s.set i { s.call i with reads := (s.call i).reads ++ [(value, (s.buf value).take len)] }
    | _ => none
  | .release i =>
    match (s.call i).stage with
    | .returned _ attr => some (s.set i { s.call i with stage := .released attr })
    | _ => none

/-- The module once it is installed, with any number of callers. -/
def attrs (ι : Type) [DecidableEq ι] (cfg : pjrs_vpt_config) (cb : pjrs_vpt_callbacks) :
    Machine (AttrSystem ι) (AttrOp ι) where
  start :=
    { vpt := { vpt_state.configured cfg cb with inited := true }
      buf := fun value => snprintf_into (List.replicate value.size 0) (value.value cfg)
      call := fun _ => {} }
  step := AttrSystem.step

end System

/-- The parameter set, as far as it has been read, is that of one configuration. -/
structure OfConfig (attr : vid_codec_param) (reads : List (Fmtp × List UInt8)) (cfg : pjrs_vpt_config) : Prop where
  copied : { attr with dec_fmtp := [] } = copied_param cfg
  names : attr.dec_fmtp.map Prod.fst = dec_fmtp_names cfg
  reads : ∀ r ∈ reads, r.2 = r.1.value cfg

/-- A set that was returned is that of a configuration that was in force at some
    moment of the call. -/
def AttrCall.Snapshot (call : AttrCall) : Prop :=
  match call.stage with
  | .returned _ attr => ∃ cfg ∈ call.in_force, OfConfig attr call.reads cfg
  | .released attr => ∃ cfg ∈ call.in_force, OfConfig attr call.reads cfg
  | _ => True

/-- A new configuration leaves what the set refers to as it was copied: a value
    whose length is known still starts with it, and one that is still to be
    added is the same. -/
def AttrCall.Keeps (call : AttrCall) (new : pjrs_vpt_config) : Prop :=
  match call.stage with
  | .filling cfg todo attr =>
    (∀ p ∈ attr.dec_fmtp, p.1.value cfg <+: p.1.value new) ∧ ∀ value ∈ todo, value.value new = value.value cfg
  | .returned cfg attr => ∀ p ∈ attr.dec_fmtp, p.1.value cfg <+: p.1.value new
  | _ => True

/-- No reconfiguration changes a value that a set refers to between the copy and
    the caller's last read. -/
def Quiet {ι : Type} (s : AttrSystem ι) : AttrOp ι → Prop
  | .reconfigure cfg => accepts s.vpt cfg = true → ∀ i, (s.call i).Keeps cfg
  | _ => True

/-- The values are text without a null byte, so they are read back whole. -/
theorem zero_notMem_value (cfg : pjrs_vpt_config) (value : Fmtp) : (0 : UInt8) ∉ value.value cfg := by
  cases value with
  | profile_level_id =>
    rw [Fmtp.value, List.mem_append, List.mem_append, not_or, not_or]
    exact ⟨⟨zero_notMem_fmt_02x _, zero_notMem_fmt_02x _⟩, zero_notMem_fmt_02x _⟩
  | max_fs => exact zero_notMem_fmt_u _
  | max_mbps => exact zero_notMem_fmt_u _
  | max_br => exact zero_notMem_fmt_u _

theorem length_fmt_u_uint32 (n : UInt32) : (fmt_u n.toNat).length ≤ 10 :=
  length_fmt_u_le (by decide) (n.toNat_lt.trans (by decide))

/-- No value is cut short in its buffer. -/
theorem length_value_lt (cfg : pjrs_vpt_config) (value : Fmtp) : (value.value cfg).length < value.size := by
  cases value with
  | profile_level_id => simp [Fmtp.value, fmt_02x, Fmtp.size]
  | max_fs => exact (length_fmt_u_uint32 cfg.max_fs).trans_lt (by decide)
  | max_mbps => exact (length_fmt_u_uint32 cfg.max_mbps).trans_lt (by decide)
  | max_br => exact (length_fmt_u_uint32 cfg.max_br).trans_lt (by decide)

/-- The strings of the module are the values of the configuration they were set
    from. -/
theorem fmtp_set_fmtp_strings (vpt : vpt_state) (cfg : pjrs_vpt_config) (value : Fmtp) :
    (set_fmtp_strings vpt cfg).fmtp value = value.value cfg := by
  have hlength := length_value_lt cfg value
  cases value <;> exact List.take_of_length_le (Nat.le_pred_of_lt hlength)

/-- What a call of `pjrs_vpt_reconfigure` does to the module is the section of
    this machine, or nothing. -/
theorem pjrs_vpt_reconfigure_section (m : Module) (cfg : pjrs_vpt_config) (out : ReconfigureOutcome) :
    (pjrs_vpt_reconfigure m cfg out).2.vpt = m.vpt ∨
      (accepts m.vpt cfg = true ∧ (pjrs_vpt_reconfigure m cfg out).2.vpt = replace_cfg m.vpt cfg) := by
  unfold pjrs_vpt_reconfigure
  split
  · exact .inl rfl
  split
  · exact .inl rfl
  split
  · exact .inl rfl
  split
  · exact .inl rfl
  split
  · exact .inl rfl
  · rename_i hinited hvalid hsizes _ _
    have haccepts : accepts m.vpt cfg = true := by
      simp only [accepts, Bool.and_eq_true, beq_iff_eq]
      simp only [not_or, not_not] at hsizes
      exact ⟨⟨⟨by simpa using hinited, by simpa using hvalid⟩, hsizes.1⟩, hsizes.2⟩
    right
    refine ⟨haccepts, ?_⟩
    dsimp only
    split <;> rfl

/-- The pointers of a set, from the configuration it was copied from: each length
    is that of the value then, and the buffer still starts with it. -/
def Refers (attr : vid_codec_param) (cfg now : pjrs_vpt_config) : Prop :=
  ∀ p ∈ attr.dec_fmtp, p.2 = (p.1.value cfg).length ∧ p.1.value cfg <+: p.1.value now

/-- What holds of a call while the configuration `now` is in force. -/
def AttrCall.Sound (call : AttrCall) (now : pjrs_vpt_config) : Prop :=
  match call.stage with
  | .idle => True
  | .entered => now ∈ call.in_force ∧ call.reads = []
  | .filling cfg todo attr =>
    cfg ∈ call.in_force ∧ call.reads = [] ∧ { attr with dec_fmtp := [] } = copied_param cfg ∧
      attr.dec_fmtp.map Prod.fst ++ todo = dec_fmtp_names cfg ∧ Refers attr cfg now ∧
      ∀ value ∈ todo, value.value now = value.value cfg
  | .returned cfg attr => cfg ∈ call.in_force ∧ OfConfig attr call.reads cfg ∧ Refers attr cfg now
  | .released attr => ∃ cfg ∈ call.in_force, OfConfig attr call.reads cfg

/-- Each buffer holds the value of the configuration in force, terminated. -/
def Holds (buf : Fmtp → List UInt8) (cfg : pjrs_vpt_config) : Prop :=
  ∀ value, (buf value).length = value.size ∧ ∃ tail, buf value = value.value cfg ++ 0 :: tail

/-- Where the values are written into buffers of their sizes, the buffers hold them,
    whatever was in there before. -/
theorem holds_snprintf {buf : Fmtp → List UInt8} (hsize : ∀ value, (buf value).length = value.size)
    (cfg : pjrs_vpt_config) : Holds (fun value => snprintf_into (buf value) (value.value cfg)) cfg := by
  intro value
  have hfits : (value.value cfg).length < (buf value).length := (hsize value).symm ▸ length_value_lt cfg value
  exact ⟨(length_snprintf_into hfits).trans (hsize value), _, snprintf_into_of_lt hfits⟩

/-- What a set refers to has the length it had when it was copied, and still begins
    with what was copied. -/
theorem Refers.of_lookup {attr : vid_codec_param} {cfg now : pjrs_vpt_config} (hrefers : Refers attr cfg now)
    {value : Fmtp} {len : Nat} (hlen : attr.dec_fmtp.lookup value = some len) :
    len = (value.value cfg).length ∧ value.value cfg <+: value.value now := by
  obtain ⟨before, after, hattr, -⟩ := List.lookup_eq_some_iff.mp hlen
  exact hrefers (value, len) (hattr ▸ List.mem_append_right before List.mem_cons_self)

structure AttrInv {ι : Type} (s : AttrSystem ι) : Prop where
  holds : Holds s.buf s.vpt.cfg
  sound : ∀ i, (s.call i).Sound s.vpt.cfg

/-- A call that keeps to its copy is as sound after a reconfiguration as before:
    what it still has to read reads the same, and what it has read is of a
    configuration in force during the call. -/
theorem AttrCall.Sound.note {call : AttrCall} {now new : pjrs_vpt_config} (hsound : call.Sound now)
    (hkeeps : call.Keeps new) : (call.note new).Sound new := by
  obtain ⟨stage, in_force, reads⟩ := call
  cases stage with
  | idle => trivial
  | entered => exact ⟨List.mem_cons_self, hsound.2⟩
  | filling cfg todo attr =>
    obtain ⟨hforce, hreads, hcopied, hnames, hrefers, -⟩ := hsound
    exact ⟨List.mem_cons_of_mem _ hforce, hreads, hcopied, hnames,
      fun p hp => ⟨(hrefers p hp).1, hkeeps.1 p hp⟩, hkeeps.2⟩
  | returned cfg attr =>
    obtain ⟨hforce, hof, hrefers⟩ := hsound
    exact ⟨hforce, hof, fun p hp => ⟨(hrefers p hp).1, hkeeps p hp⟩⟩
  | released attr => exact hsound

/-- A reconfiguration that keeps what the sets in use refer to changes none of them.
    The sets that refer to nothing yet, or nothing any more, need not be looked at. -/
theorem AttrInv.reconfigure {ι : Type} {s : AttrSystem ι} (hs : AttrInv s) {cfg : pjrs_vpt_config}
    (hkeeps : ∀ i, (s.call i).Keeps cfg) :
    AttrInv (s.reconfigure cfg) where
  holds := holds_snprintf (fun value => (hs.holds value).1) cfg
  sound i := (hs.sound i).note (hkeeps i)

/-- A caller reads the value of the configuration the set was copied from exactly
    if the buffer still starts with it. -/
theorem Holds.take_eq_iff {buf : Fmtp → List UInt8} {now cfg : pjrs_vpt_config} (hbuf : Holds buf now) {value : Fmtp} :
    (buf value).take (value.value cfg).length = value.value cfg ↔ value.value cfg <+: value.value now := by
  obtain ⟨-, tail, htail⟩ := hbuf value
  rw [htail, take_append_nul_eq_iff (zero_notMem_value cfg value)]

theorem Holds.strlen_eq {buf : Fmtp → List UInt8} {now : pjrs_vpt_config} (hbuf : Holds buf now) (value : Fmtp) :
    strlen (buf value) = (value.value now).length := by
  obtain ⟨-, tail, htail⟩ := hbuf value
  rw [htail, strlen_append_nul (zero_notMem_value now value)]

/-- A `pj_str` measures the value of the configuration the set was copied from,
    although it reads the module's buffer without the lock: no reconfiguration in
    between has changed that value. -/
theorem AttrCall.Sound.pj_str {call : AttrCall} {now cfg : pjrs_vpt_config} {value : Fmtp} {todo : List Fmtp}
    {attr : vid_codec_param} {buf : Fmtp → List UInt8} (hsound : call.Sound now)
    (hstage : call.stage = .filling cfg (value :: todo) attr) (hbuf : Holds buf now) :
    AttrCall.Sound { call with
      stage := .filling cfg todo
        { attr with dec_fmtp := attr.dec_fmtp ++ [(value, strlen (buf value))] } } now := by
  rw [AttrCall.Sound, hstage] at hsound
  obtain ⟨hforce, hreads, hcopied, hnames, hrefers, htodo⟩ := hsound
  have hvalue := htodo value List.mem_cons_self
  refine ⟨hforce, hreads, hcopied, ?_, ?_, fun v hv => htodo v (List.mem_cons_of_mem _ hv)⟩
  · rw [List.map_append, List.append_assoc]
    exact hnames
  · intro p hp
    rcases List.mem_append.mp hp with hold | hnew
    · exact hrefers p hold
    · rw [List.mem_singleton.mp hnew, hbuf.strlen_eq, hvalue]
      exact ⟨rfl, List.prefix_refl _⟩

/-- A caller reads the value of the configuration the set was copied from. The
    buffer may hold a longer value by then, as long as it begins in the same way. -/
theorem AttrCall.Sound.read {call : AttrCall} {now cfg : pjrs_vpt_config} {attr : vid_codec_param}
    {buf : Fmtp → List UInt8} (hsound : call.Sound now) (hstage : call.stage = .returned cfg attr)
    (hbuf : Holds buf now) {value : Fmtp} {len : Nat} (hlen : attr.dec_fmtp.lookup value = some len) :
    AttrCall.Sound { call with reads := call.reads ++ [(value, (buf value).take len)] } now := by
  rw [AttrCall.Sound, hstage] at hsound
  obtain ⟨hforce, hof, hrefers⟩ := hsound
  obtain ⟨rfl, hprefix⟩ := hrefers.of_lookup hlen
  rw [AttrCall.Sound, hstage]
  refine ⟨hforce, ⟨hof.copied, hof.names, ?_⟩, hrefers⟩
  intro r hr
  rcases List.mem_append.mp hr with hold | hnew
  · exact hof.reads r hold
  · rw [List.mem_singleton.mp hnew]
    exact hbuf.take_eq_iff.mpr hprefix

section Steps

variable {ι : Type} [DecidableEq ι] {s t : AttrSystem ι}

/-- One caller moves, and nothing else. -/
theorem AttrInv.set (hs : AttrInv s) {i : ι} {call : AttrCall} (hcall : call.Sound s.vpt.cfg) :
    AttrInv (s.set i call) where
  holds := hs.holds
  sound j := by
    by_cases hj : j = i
    · subst hj
      simp only [AttrSystem.set, Function.update_self]
      exact hcall
    · simp only [AttrSystem.set, Function.update_of_ne hj]
      exact hs.sound j

/-- One case for each operation; only the reconfiguration needs the condition. The
    callers do not get in each other's way, since each fills in its own set. -/
theorem AttrInv.step (hs : AttrInv s) {a : AttrOp ι} (hquiet : Quiet s a) (hstep : s.step a = some t) :
    AttrInv t := by
  cases a with
  | reconfigure cfg =>
    simp only [AttrSystem.step] at hstep
    split at hstep
    · rename_i haccepts
      cases hstep
      exact hs.reconfigure (hquiet haccepts)
    · cases hstep
      exact hs
  | enter i =>
    simp only [AttrSystem.step] at hstep
    split at hstep
    · cases hstep
      exact hs.set ⟨List.mem_cons_self, rfl⟩
    · cases hstep
      exact hs.set ⟨List.mem_cons_self, rfl⟩
    · cases hstep
  | copy i =>
    have hsound := hs.sound i
    simp only [AttrSystem.step] at hstep
    split at hstep
    · rename_i hstage
      cases hstep
      rw [AttrCall.Sound, hstage] at hsound
      exact hs.set ⟨hsound.1, hsound.2, rfl, rfl, fun p hp => absurd hp List.not_mem_nil, fun _ _ => rfl⟩
    · cases hstep
  | pj_str i =>
    have hsound := hs.sound i
    simp only [AttrSystem.step] at hstep
    split at hstep
    · rename_i cfg value todo attr hstage
      cases hstep
      exact hs.set (hsound.pj_str hstage hs.holds)
    · cases hstep
  | ret i =>
    have hsound := hs.sound i
    simp only [AttrSystem.step] at hstep
    split at hstep
    · rename_i cfg attr hstage
      cases hstep
      rw [AttrCall.Sound, hstage] at hsound
      obtain ⟨hforce, hreads, hcopied, hnames, hrefers, -⟩ := hsound
      rw [List.append_nil] at hnames
      refine hs.set ⟨hforce, ⟨hcopied, hnames, ?_⟩, hrefers⟩
      rw [hreads]
      exact fun r hr => absurd hr List.not_mem_nil
    · cases hstep
  | read i value =>
    have hsound := hs.sound i
    simp only [AttrSystem.step] at hstep
    split at hstep
    · rename_i cfg attr hstage
      obtain ⟨len, hlen, rfl⟩ := Option.map_eq_some_iff.mp hstep
      exact hs.set (hsound.read hstage hs.holds hlen)
    · cases hstep
  | release i =>
    have hsound := hs.sound i
    simp only [AttrSystem.step] at hstep
    split at hstep
    · rename_i cfg attr hstage
      cases hstep
      rw [AttrCall.Sound, hstage] at hsound
      exact hs.set ⟨cfg, hsound.1, hsound.2.1⟩
    · cases hstep

/-- The invariant of all callers and of the module's strings holds throughout a
    quiet run. -/
theorem attrInv_of_reach {cfg : pjrs_vpt_config} {cb : pjrs_vpt_callbacks}
    (hreach : Machine.Reach (attrs ι cfg cb) Quiet s) : AttrInv s := by
  refine hreach.invariant (P := AttrInv) ?_ ?_
  · exact ⟨holds_snprintf (fun value => List.length_replicate) cfg, fun _ => trivial⟩
  · intro s a t _ hquiet hstep hs
    exact hs.step hquiet hstep

/-- In a run in which no reconfiguration changes what a set refers to between the
    copy and the caller's last read, every set is that of one configuration that was
    in force during its call. Any number of callers fill in and read sets at once,
    and what is not referred to, like the picture size, may change at any time. -/
theorem codec_params_snapshot {cfg : pjrs_vpt_config} {cb : pjrs_vpt_callbacks}
    (hreach : Machine.Reach (attrs ι cfg cb) Quiet s) (i : ι) : (s.call i).Snapshot := by
  have hsound := (attrInv_of_reach hreach).sound i
  rw [AttrCall.Snapshot]
  split
  · rename_i cfg attr hstage
    rw [AttrCall.Sound, hstage] at hsound
    exact ⟨cfg, hsound.1, hsound.2.1⟩
  · rename_i attr hstage
    rw [AttrCall.Sound, hstage] at hsound
    exact hsound
  · trivial

/-- The condition is sharp: once a value that a set refers to no longer starts
    with what was copied, the caller's next read of it gives a set that is that of
    no configuration of its call, if only one was in force then. -/
theorem torn_of_changed {cfg cfg' new : pjrs_vpt_config} {cb : pjrs_vpt_callbacks}
    (hreach : Machine.Reach (attrs ι cfg cb) Quiet s) {i : ι} {attr : vid_codec_param}
    (hstage : (s.call i).stage = .returned cfg' attr) (honly : (s.call i).in_force = [cfg'])
    (haccepts : accepts s.vpt new = true) {value : Fmtp} {len : Nat} (hlen : attr.dec_fmtp.lookup value = some len)
    (hchanged : ¬value.value cfg' <+: value.value new)
    (hexec : (attrs ι cfg cb).exec s [.reconfigure new, .read i value] = some t) : ¬(t.call i).Snapshot := by
  have hinv := attrInv_of_reach hreach
  have hsound := hinv.sound i
  rw [AttrCall.Sound, hstage] at hsound
  have hp := hsound.2.2.of_lookup hlen
  have hbuf := holds_snprintf (fun value => (hinv.holds value).1) new
  have hnote : (s.call i).note new = s.call i := by rw [AttrCall.note, hstage]
  simp only [Machine.exec_cons, attrs, AttrSystem.step, if_pos haccepts, Option.bind_some, AttrSystem.reconfigure,
    hnote, hstage, hlen, Option.map_some, Machine.exec_nil, Option.some.injEq] at hexec
  subst hexec
  simp only [AttrCall.Snapshot, AttrSystem.set, Function.update_self, honly, List.mem_singleton, exists_eq_left]
  intro hof
  have hread := hof.reads (value, _) (List.mem_append_right _ List.mem_cons_self)
  rw [show len = (value.value cfg').length from hp.1] at hread
  exact hchanged (hbuf.take_eq_iff.mp hread)

end Steps

def cfg_480p : pjrs_vpt_config :=
  { width := 640, height := 480, fps := 15, poll_fps := 30, max_frame_size := 262144, avg_bps := 1000000
    max_bps := 1500000, pt := 97, packetization_mode := 1, profile_idc := 0x42, profile_iop := 0xe0, level_idc := 31
    max_fs := 0, max_mbps := 0, max_br := 0 }

def cfg_720p : pjrs_vpt_config := { cfg_480p with width := 1280, height := 720 }

/-- The picture changes while a set is in use, and the profile does not. -/
theorem codec_params_snapshot_720p :
    ∃ s : AttrSystem Nat, Machine.Reach (attrs Nat cfg_480p {}) Quiet s ∧
      (s.call 0).reads = [(.profile_level_id, fmt_02x 0x42 ++ fmt_02x 0xe0 ++ fmt_02x 31)] ∧
      s.vpt.cfg = cfg_720p ∧ (s.call 0).Snapshot := by
  have hstart : Machine.Reach (attrs Nat cfg_480p {}) Quiet _ := .start
  have hfilled := ((hstart.step (a := AttrOp.enter 0) trivial rfl).step (a := AttrOp.copy 0) trivial rfl).step
    (a := AttrOp.pj_str 0) trivial rfl
  have hreconfigured := hfilled.step (a := AttrOp.reconfigure cfg_720p) (fun _ i => by
    cases i with
    | zero => exact ⟨by decide, by decide⟩
    | succ i => trivial) rfl
  have hreturned := hreconfigured.step (a := AttrOp.ret 0) trivial rfl
  have hread := hreturned.step (a := AttrOp.read 0 .profile_level_id) trivial rfl
  exact ⟨_, hread, rfl, rfl, codec_params_snapshot hread 0⟩

/-- The profile changes after the set is returned: the caller reads the new one
    with the picture and the bitrates of the old configuration. -/
theorem codec_params_torn :
    ∃ s : AttrSystem Nat, Machine.Reach (attrs Nat cfg_480p {}) (fun _ _ => True) s ∧ ¬(s.call 0).Snapshot := by
  have hstart : Machine.Reach (attrs Nat cfg_480p {}) (fun _ _ => True) _ := .start
  have hfilled := ((hstart.step (a := AttrOp.enter 0) trivial rfl).step (a := AttrOp.copy 0) trivial rfl).step
    (a := AttrOp.pj_str 0) trivial rfl
  have hreconfigured := (hfilled.step (a := AttrOp.ret 0) trivial rfl).step
    (a := AttrOp.reconfigure { cfg_720p with profile_idc := 0x64, profile_iop := 0, level_idc := 40 }) trivial rfl
  have hread := hreconfigured.step (a := AttrOp.read 0 .profile_level_id) trivial rfl
  refine ⟨_, hread, ?_⟩
  rintro ⟨cfg, hcfg, hof⟩
  have hvalue := hof.reads _ (List.mem_singleton_self _)
  rw [List.mem_singleton.mp hcfg] at hvalue
  exact absurd hvalue (by decide)

end pjsua_rust.video_passthrough
