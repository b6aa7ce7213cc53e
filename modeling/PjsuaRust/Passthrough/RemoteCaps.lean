import PjsuaRust.Passthrough.Factory
import PjsuaRust.Pjlib.Numeral
import PjsuaRust.Trace.Message

open pjsua_rust.trace_module pjsua_rust.video transition

namespace pjsua_rust.video_passthrough

/-- The parameters of an fmtp, in order. -/
abbrev pjmedia_codec_fmtp := List (List UInt8 × List UInt8)

def PLI : List UInt8 := c_str "profile-level-id"

def PACKETIZATION_MODE : List UInt8 := c_str "packetization-mode"

def MAX_FS : List UInt8 := c_str "max-fs"

def MAX_MBPS : List UInt8 := c_str "max-mbps"

def MAX_BR : List UInt8 := c_str "max-br"

def Fmtp.name : Fmtp → List UInt8
  | .profile_level_id => PLI
  | .max_fs => MAX_FS
  | .max_mbps => MAX_MBPS
  | .max_br => MAX_BR

/-- `attr->dec_fmtp` from the copy of the configuration and the strings the
    pointers lead to. -/
def dec_fmtp (cfg : pjrs_vpt_config) (strings : Fmtp → List UInt8) : pjmedia_codec_fmtp :=
  [(PLI, strings .profile_level_id), (PACKETIZATION_MODE, mode_value cfg)] ++
    (if cfg.max_fs ≠ 0 then [(MAX_FS, strings .max_fs)] else []) ++
    (if cfg.max_mbps ≠ 0 then [(MAX_MBPS, strings .max_mbps)] else []) ++
    if cfg.max_br ≠ 0 then [(MAX_BR, strings .max_br)] else []

end pjsua_rust.video_passthrough

namespace pjsua_rust.video

open video_passthrough

end pjsua_rust.video

namespace pjsua_rust.video_passthrough

/-- The value of the first parameter of a name, names compared without regard to
    case. -/
def fmtp_value (params : pjmedia_codec_fmtp) (name : List UInt8) : Option (List UInt8) :=
  (params.find? fun param => stricmp2_eq name param.1).map Prod.snd

/-- No name stands twice. -/
def Distinct (params : pjmedia_codec_fmtp) : Prop := ((params.map Prod.fst).map (List.map to_lower)).Nodup

/-- A parameter that is a decimal number, or is left out. -/
def StatesNumber (params : pjmedia_codec_fmtp) (name : List UInt8) (n : Option Nat) : Prop :=
  (fmtp_value params name).map (numeral 10) = n.map some

/-- What parameters say of a receiver: a profile and a level, a packetization mode,
    and the limits that go beyond the level. -/
structure Stated (params : pjmedia_codec_fmtp) (profile : H264Profile) (mode : Option UInt8)
    (receive : H264ReceiveLimits) : Prop where
  distinct : Distinct params
  profile : ∃ text, fmtp_value params PLI = some text ∧ text.length = 6 ∧
    numeral 16 text = some (65536 * profile.profile_idc.toNat + 256 * profile.profile_iop.toNat + profile.level_idc.toNat)
  mode : StatesNumber params PACKETIZATION_MODE (mode.map UInt8.toNat)
  max_fs : StatesNumber params MAX_FS (receive.max_fs.map UInt32.toNat)
  max_mbps : StatesNumber params MAX_MBPS (receive.max_mbps.map UInt32.toNat)
  max_br : StatesNumber params MAX_BR (receive.max_br_kbps.map UInt32.toNat)

/-- The parameters of a session description reach the other side: the same value
    for every name, in whatever order and case. -/
structure Carried (sent received : pjmedia_codec_fmtp) : Prop where
  distinct : Distinct received
  value : ∀ name, fmtp_value received name = fmtp_value sent name

/-- What is carried says the same. -/
theorem Stated.carried {sent received : pjmedia_codec_fmtp} {profile : H264Profile} {mode : Option UInt8}
    {receive : H264ReceiveLimits} (hstated : Stated sent profile mode receive) (hcarried : Carried sent received) :
    Stated received profile mode receive where
  distinct := hcarried.distinct
  profile := hcarried.value PLI ▸ hstated.profile
  mode := by rw [StatesNumber, hcarried.value]; exact hstated.mode
  max_fs := by rw [StatesNumber, hcarried.value]; exact hstated.max_fs
  max_mbps := by rw [StatesNumber, hcarried.value]; exact hstated.max_mbps
  max_br := by rw [StatesNumber, hcarried.value]; exact hstated.max_br

/-- The fmtp a caller of `vc_default_attr` copies from the set it was given, with
    what it read: `packetization-mode` is the second parameter. -/
def vid_codec_param.fmtp (attr : vid_codec_param) (reads : List (Fmtp × List UInt8)) : pjmedia_codec_fmtp :=
  let params := attr.dec_fmtp.map fun p => (p.1.name, (reads.lookup p.1).getD [])
  params.take 1 ++ (PACKETIZATION_MODE, attr.packetization_mode) :: params.drop 1

/-- Every value that was read is that of the configuration, so the first one found
    is. -/
theorem lookup_of_read {cfg : pjrs_vpt_config} {reads : List (Fmtp × List UInt8)}
    (hreads : ∀ r ∈ reads, r.2 = r.1.value cfg) {value : Fmtp} {text : List UInt8} (hread : (value, text) ∈ reads) :
    reads.lookup value = some (value.value cfg) := by
  induction reads with
  | nil => cases hread
  | cons r reads ih =>
    rw [List.lookup_cons]
    cases hsame : value == r.1 with
    | true => rw [hreads r List.mem_cons_self, beq_iff_eq.mp hsame]
    | false =>
      cases List.mem_cons.mp hread with
      | inl hhead =>
        rw [← hhead, beq_self_eq_true] at hsame
        cases hsame
      | inr htail => exact ih (fun r hr => hreads r (List.mem_cons_of_mem _ hr)) htail

/-- A set that was read to the end is the fmtp of its configuration. Each value was
    read at its own time, so this needs that they all are of one. -/
theorem OfConfig.fmtp_eq {attr : vid_codec_param} {reads : List (Fmtp × List UInt8)} {cfg : pjrs_vpt_config}
    (hof : OfConfig attr reads cfg) (hread : ∀ p ∈ attr.dec_fmtp, ∃ text, (p.1, text) ∈ reads) :
    attr.fmtp reads = dec_fmtp cfg fun value => value.value cfg := by
  have hparams : attr.dec_fmtp.map (fun p => (p.1.name, (reads.lookup p.1).getD [])) =
      (dec_fmtp_names cfg).map fun value => (value.name, value.value cfg) := by
    rw [← hof.names, List.map_map]
    refine List.map_congr_left fun p hp => ?_
    obtain ⟨text, htext⟩ := hread p hp
    rw [lookup_of_read hof.reads htext]
    rfl
  have hmode : attr.packetization_mode = mode_value cfg := congrArg vid_codec_param.packetization_mode hof.copied
  simp only [vid_codec_param.fmtp, hparams, hmode, dec_fmtp, dec_fmtp_names]
  split_ifs <;> rfl

section Runs

variable {ι : Type} [DecidableEq ι] {s t : AttrSystem ι}

/-- Only valid configurations are in force. -/
structure ValidInForce (s : AttrSystem ι) : Prop where
  now : cfg_valid s.vpt.cfg = true
  in_force : ∀ i, ∀ cfg ∈ (s.call i).in_force, cfg_valid cfg = true

theorem ValidInForce.set (hs : ValidInForce s) {i : ι} {call : AttrCall}
    (hcall : ∀ cfg ∈ call.in_force, cfg_valid cfg = true) : ValidInForce (s.set i call) where
  now := hs.now
  in_force j cfg hcfg := by
    by_cases hj : j = i
    · subst hj
      simp only [AttrSystem.set, Function.update_self] at hcfg
      exact hcall cfg hcfg
    · simp only [AttrSystem.set, Function.update_of_ne hj] at hcfg
      exact hs.in_force j cfg hcfg

theorem AttrCall.mem_note {call : AttrCall} {cfg c : pjrs_vpt_config} (hc : c ∈ (call.note cfg).in_force) :
    c = cfg ∨ c ∈ call.in_force := by
  rw [AttrCall.note] at hc
  split at hc
  · exact List.mem_cons.mp hc
  · exact List.mem_cons.mp hc
  · exact .inr hc

/-- Only a valid configuration comes into force. So whatever a caller copied is
    valid, also if it was replaced in the meantime. -/
theorem ValidInForce.step (hs : ValidInForce s) {op : AttrOp ι} (hstep : s.step op = some t) : ValidInForce t := by
  cases op with
  | reconfigure cfg =>
    simp only [AttrSystem.step] at hstep
    split at hstep
    · rename_i haccepts
      cases hstep
      have hvalid : cfg_valid cfg = true := by
        simp only [accepts, Bool.and_eq_true] at haccepts
        exact haccepts.1.1.2
      refine ⟨hvalid, fun i c hc => ?_⟩
      cases AttrCall.mem_note hc with
      | inl hnew => exact hnew ▸ hvalid
      | inr hold => exact hs.in_force i c hold
    · cases hstep
      exact hs
  | enter i =>
    simp only [AttrSystem.step] at hstep
    split at hstep
    · cases hstep
      exact hs.set fun c hc => List.mem_singleton.mp hc ▸ hs.now
    · cases hstep
      exact hs.set fun c hc => List.mem_singleton.mp hc ▸ hs.now
    · cases hstep
  | copy i =>
    simp only [AttrSystem.step] at hstep
    split at hstep
    · cases hstep
      exact hs.set (hs.in_force i)
    · cases hstep
  | pj_str i =>
    simp only [AttrSystem.step] at hstep
    split at hstep
    · cases hstep
      exact hs.set (hs.in_force i)
    · cases hstep
  | ret i =>
    simp only [AttrSystem.step] at hstep
    split at hstep
    · cases hstep
      exact hs.set (hs.in_force i)
    · cases hstep
  | read i value =>
    simp only [AttrSystem.step] at hstep
    split at hstep
    · obtain ⟨len, -, rfl⟩ := Option.map_eq_some_iff.mp hstep
      exact hs.set (hs.in_force i)
    · cases hstep
  | release i =>
    simp only [AttrSystem.step] at hstep
    split at hstep
    · cases hstep
      exact hs.set (hs.in_force i)
    · cases hstep

end Runs

end pjsua_rust.video_passthrough
