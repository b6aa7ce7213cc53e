import PjsuaRust.Passthrough.Decode
import PjsuaRust.Passthrough.Device
import PjsuaRust.Passthrough.EncodeBegin
import PjsuaRust.Video.Install

open pjsua_rust.video transition

namespace pjsua_rust.video_passthrough

/-- A passthrough in use by any number of codecs. -/
structure Streams where
  shared : Shared
  module : Module
  codec : Nat → Option vpt_codec

/-- A frame as the bridge allocates it: as large as the device says. -/
def pjmedia_frame.Exact (frame : pjmedia_frame) (vpt : vpt_state) : Prop :=
  frame.size = vpt.framebytes.toNat ∧ frame.buf.cap = vpt.framebytes.toNat

instance (frame : pjmedia_frame) (vpt : vpt_state) : Decidable (frame.Exact vpt) :=
  inferInstanceAs (Decidable (_ ∧ _))

inductive StreamOp where
  | push_frame (frame : List UInt8) (keyframe : Bool)
  | clear
  | reconfigure (config : PassthroughConfig) (out : ReconfigureOutcome)
  | open (c : Nat) (param : pjmedia_vid_codec_param) (out : OpenOutcome)
  | modify (c : Nat) (avg_bps max_bps : UInt32)
  | encode_begin (c : Nat) (force_keyframe : Bool) (input : pjmedia_frame) (packetize : Packetizer)
      (out_size : Nat) (output : Output)
  | encode_more (c : Nat) (packetize : Packetizer) (out_size : Nat) (output : Output)
  | decode (c : Nat) (unpacketize : Unpacketizer) (packets : List RtpPacket) (out_size : UInt32)
      (output : pjmedia_frame)

/-- A codec is used once an open of it went through, and no more once one
    failed. A new one is made by the codec factory first. -/
def Streams.open (s : Streams) (c : Nat) (param : pjmedia_vid_codec_param) (out : OpenOutcome) : Streams :=
  let (status, vc, _) := vc_open s.module.vpt ((s.codec c).getD vc_alloc_codec) param out
  { s with codec := Function.update s.codec c (if status = .PJ_SUCCESS then some vc else none) }

/-- One call. A call that leaves its buffers has no next state, and neither has
    the open of a new codec while no codec factory is registered: PJMEDIA has
    nowhere to get the codec from. -/
def Streams.step (s : Streams) : StreamOp → Option Streams
  | .push_frame frame keyframe =>
    some { s with shared := (VideoPassthrough.push_frame s.shared frame keyframe).shared }
  | .clear =>
    let (shared, vpt) := VideoPassthrough.clear s.shared s.module.vpt
    some { s with shared, module := { s.module with vpt } }
  | .reconfigure config out =>
    let (_, shared, module) := VideoPassthrough.reconfigure s.shared s.module config out
    some { s with shared, module }
  | .open c param out =>
    if (s.codec c).isNone && !s.module.codec_registered then none else some (s.open c param out)
  | .modify c avg_bps max_bps =>
    (s.codec c).map fun vc =>
      { s with codec := Function.update s.codec c (some (vc_modify s.module.vpt vc avg_bps max_bps).1) }
  | .encode_begin c force_keyframe input packetize out_size output =>
    (s.codec c).bind fun vc =>
      match vc_encode_begin vc s.module.vpt (some s.shared) force_keyframe input packetize out_size output with
      | .error _ => none
      | .ok b => some {
          shared := b.slot.getD s.shared
          module := { s.module with vpt := b.encoded.vpt }
          codec := Function.update s.codec c (some b.encoded.vc) }
  | .encode_more c packetize out_size output =>
    (s.codec c).map fun vc =>
      let e := vc_encode_more vc s.module.vpt packetize out_size output
      { s with
        module := { s.module with vpt := e.vpt }
        codec := Function.update s.codec c (some e.vc) }
  | .decode c unpacketize packets out_size output =>
    (s.codec c).bind fun vc =>
      match vc_decode vc s.module.vpt unpacketize packets out_size output with
      | .error _ => none
      | .ok d => some { s with codec := Function.update s.codec c (some d.vc) }

/-- The passthrough just installed, with no codec open. -/
def streams (shared : Shared) (module : Module) : Machine Streams StreamOp where
  start := { shared, module, codec := fun _ => none }
  step := Streams.step

/-- What PJMEDIA sees to: frames are as large as the device says, and a decoder
    is fed within its buffer. -/
def Supplied (s : Streams) : StreamOp → Prop
  | .encode_begin _ _ input _ _ _ => input.Exact s.module.vpt
  | .decode c unpacketize _ _ output =>
    output.Exact s.module.vpt ∧ ∀ vc ∈ s.codec c, unpacketize.InBounds vc.dec_buf_size
  | _ => True

/-- Rust and C agree on the sizes of one state: what is accepted is within C's
    limit, the front frame is peeked in full, and no call leaves its buffers. -/
structure Streams.Agrees (config : PassthroughConfig) (s : Streams) : Prop where
  framebytes : s.module.vpt.framebytes.toNat = AU_HDR_SIZE + config.max_frame_size
  accepted : ∀ frame keyframe, (VideoPassthrough.push_frame s.shared frame keyframe).result = true →
    frame.length ≤ s.module.vpt.cfg.max_frame_size.toNat
  peeked : ∀ front ∈ s.shared.queue.frames.head?,
    capture_peek (some s.shared) s.module.vpt.cfg.max_frame_size.toNat = some front
  polled : ∀ strm frame, frame.Exact s.module.vpt →
    ∃ r, vd_get_frame s.module.vpt (some s.shared) strm frame = .ok r
  encoded : ∀ c, ∀ vc ∈ s.codec c, ∀ force_keyframe input packetize out_size output,
    input.Exact s.module.vpt →
    ∃ b, vc_encode_begin vc s.module.vpt (some s.shared) force_keyframe input packetize out_size output = .ok b
  decoded : ∀ c, ∀ vc ∈ s.codec c, ∀ unpacketize packets out_size output,
    output.Exact s.module.vpt → unpacketize.InBounds vc.dec_buf_size →
    ∃ d, vc_decode vc s.module.vpt unpacketize packets out_size output = .ok d

/-- The buffers of an open codec hold `size` bytes. -/
structure vpt_codec.Sized (vc : vpt_codec) (size : Nat) : Prop where
  enc_buf : vc.enc_buf.length = size
  dec_buf : vc.dec_buf.length = size
  dec_buf_size : vc.dec_buf_size.toNat = size

/-- The one size that all the limits and buffers come from. -/
structure Streams.Sized (size : Nat) (s : Streams) : Prop where
  max_frame_size : s.shared.max_frame_size = size
  frames : ∀ f ∈ s.shared.queue.frames, f.data.length ≤ size
  cfg : s.module.vpt.cfg.max_frame_size.toNat = size
  framebytes : s.module.vpt.framebytes.toNat = AU_HDR_SIZE + size
  codec : ∀ c, ∀ vc ∈ s.codec c, vc.Sized size

/-- A push keeps the limit, and every queued frame within it. A frame over the limit
    is turned down, whatever the flag says. -/
theorem push_frame_sized (self : Shared) (frame : List UInt8) (keyframe : Bool)
    (hframes : ∀ f ∈ self.queue.frames, f.data.length ≤ self.max_frame_size) :
    let pushed := VideoPassthrough.push_frame self frame keyframe
    pushed.shared.max_frame_size = self.max_frame_size ∧
      (∀ f ∈ pushed.shared.queue.frames, f.data.length ≤ self.max_frame_size) ∧
      (pushed.result = true → frame.length ≤ self.max_frame_size) := by
  have hstep := VideoPassthrough.push_frame_step self frame keyframe
  generalize VideoPassthrough.push_frame self frame keyframe = pushed at hstep
  cases hstep with
  | size => exact ⟨rfl, hframes, by simp⟩
  | waiting => exact ⟨rfl, hframes, by simp⟩
  | flushed => exact ⟨rfl, by simp, by simp⟩
  | accepted hframe _ kept hkept =>
    refine ⟨rfl, ?_, fun _ => hframe.2⟩
    intro f hf
    rcases List.mem_append.mp hf with hf | hf
    · exact hframes f (hkept.suffix.subset hf)
    · rw [List.mem_singleton.mp hf]
      exact hframe.2

/-- An open that succeeds leaves buffers of the size configured for access units,
    also if the codec was open before. -/
theorem vc_open_sized {vpt : vpt_state} {vc vc' : vpt_codec} {param : pjmedia_vid_codec_param}
    {out : OpenOutcome} {cbs : List Callback} (hopen : vc_open vpt vc param out = (.PJ_SUCCESS, vc', cbs)) :
    vc'.Sized vpt.cfg.max_frame_size.toNat := by
  rcases vc_open_cases vpt vc param out with ⟨-, vc'', heq, -, henc, hdec, hsize, -⟩ | ⟨-, status, hne, heq⟩
  · rw [heq] at hopen
    cases hopen
    exact ⟨henc, hdec, congrArg _ hsize⟩
  · rw [heq] at hopen
    cases hopen
    exact absurd rfl hne

theorem EncodeKeeps.sized {vc vc' : vpt_codec} {vpt vpt' : vpt_state} (hkeeps : EncodeKeeps vc vc' vpt vpt')
    {size : Nat} (hsized : vc.Sized size) : vc'.Sized size :=
  ⟨hkeeps.enc_buf.trans hsized.enc_buf, hkeeps.dec_buf ▸ hsized.dec_buf,
    hkeeps.dec_buf_size ▸ hsized.dec_buf_size⟩

section Begin

variable {vc : vpt_codec} {vpt : vpt_state} {shared : Shared} {input : pjmedia_frame} {b : Begun}
  (hbegin : BeginStep vc vpt (some shared) input b)
include hbegin

/-- An encode takes frames from the front of the queue, if any. -/
theorem BeginStep.slot : ∃ shared', b.slot = some shared' ∧ shared'.max_frame_size = shared.max_frame_size ∧
    shared'.queue.frames <:+ shared.queue.frames := by
  cases hbegin with
  | refused _ _ _ _ hslot => exact ⟨shared, hslot, rfl, List.suffix_refl _⟩
  | taken hdr _ _ hslot =>
    rw [hslot]
    split
    · exact ⟨_, rfl, rfl, Queue.consume_through_suffix _ _⟩
    · exact ⟨shared, rfl, rfl, List.suffix_refl _⟩

/-- An encode changes the module in one field at most. -/
theorem BeginStep.only_keyed : ∃ epoch, b.encoded.vpt = { vpt with keyed_epoch := epoch } := by
  cases hbegin with
  | refused _ _ _ hvpt => exact ⟨vpt.keyed_epoch, hvpt⟩
  | taken _ _ _ _ hsent => exact hsent.keeps.vpt

theorem BeginStep.sized {size : Nat} (hsized : vc.Sized size) : b.encoded.vc.Sized size := by
  cases hbegin with
  | refused _ _ hvc => exact hvc ▸ hsized
  | taken _ _ _ _ hsent => exact hsent.keeps.sized ⟨hsized.enc_buf, hsized.dec_buf, hsized.dec_buf_size⟩

end Begin

section Sized

variable {size : Nat} {s : Streams} (hsized : s.Sized size)
include hsized

/-- An encode of a frame as large as the device says does not leave its buffers,
    whatever the frame has in it: its header, too, may be anything. -/
theorem encode_begin_inBounds {c : Nat} {vc : vpt_codec} (hvc : vc ∈ s.codec c) {input : pjmedia_frame}
    (hexact : input.Exact s.module.vpt) (force_keyframe : Bool) (packetize : Packetizer) (out_size : Nat)
    (output : Output) :
    ∃ b, vc_encode_begin vc s.module.vpt (some s.shared) force_keyframe input packetize out_size output = .ok b ∧
      BeginStep vc s.module.vpt (some s.shared) input b := by
  have hbuf := (hsized.codec c vc hvc).enc_buf
  have hbytes := hsized.framebytes
  obtain ⟨hsize, hcap⟩ := hexact
  exact vc_encode_begin_ok _ _ _ (by omega) (by omega) _ _ _ _ _

/-- Nor does a decode, where the packetizer keeps to the buffer that it is given. -/
theorem decode_inBounds {c : Nat} {vc : vpt_codec} (hvc : vc ∈ s.codec c) {output : pjmedia_frame}
    (hexact : output.Exact s.module.vpt) {unpacketize : Unpacketizer}
    (hbounds : unpacketize.InBounds vc.dec_buf_size) (packets : List RtpPacket) (out_size : UInt32) :
    ∃ d, vc_decode vc s.module.vpt unpacketize packets out_size output = .ok d ∧ d.vc.Sized size := by
  obtain ⟨henc, hdec, hsize⟩ := hsized.codec c vc hvc
  have hbytes := hsized.framebytes
  obtain ⟨-, hcap⟩ := hexact
  obtain ⟨d, hd, -, henc', hsize', hdec'⟩ := vc_decode_ok hbounds (hdec.trans hsize.symm)
    output (by omega) s.module.vpt packets out_size
  exact ⟨d, hd, henc' ▸ henc, hdec'.trans hdec, hsize' ▸ hsize⟩

theorem Streams.Sized.set_codec (c : Nat) {vc' : Option vpt_codec} (hvc' : ∀ vc ∈ vc', vc.Sized size) :
    Streams.Sized size { s with codec := Function.update s.codec c vc' } := by
  refine ⟨hsized.max_frame_size, hsized.frames, hsized.cfg, hsized.framebytes, ?_⟩
  intro c' vc hvc
  dsimp only at hvc
  by_cases hc : c' = c
  · subst hc
    rw [Function.update_self] at hvc
    exact hvc' vc hvc
  · rw [Function.update_of_ne hc] at hvc
    exact hsized.codec c' vc hvc

/-- No call changes the size that all the limits and buffers come from: the C
    configuration, the limit of the queue and the buffers of the codecs still agree.
    A reconfiguration that would change it is refused. One case for each call. -/
theorem Streams.Sized.step {t : Streams} {op : StreamOp} (hsupplied : Supplied s op)
    (hstep : s.step op = some t) : t.Sized size := by
  cases op with
  | push_frame frame keyframe =>
    cases hstep
    obtain ⟨hmax, hframes, -⟩ := push_frame_sized s.shared frame keyframe
      (hsized.max_frame_size ▸ hsized.frames)
    exact ⟨hmax.trans hsized.max_frame_size, hsized.max_frame_size ▸ hframes, hsized.cfg,
      hsized.framebytes, hsized.codec⟩
  | clear =>
    obtain ⟨epoch, hvpt⟩ := pjrs_vpt_source_restarted_eq s.module.vpt
    simp only [Streams.step, VideoPassthrough.clear, hvpt, Option.some.injEq] at hstep
    subst hstep
    exact ⟨hsized.max_frame_size, by simp, hsized.cfg, hsized.framebytes, hsized.codec⟩
  | reconfigure config out =>
    have hsizes := VideoPassthrough.reconfigure_sizes s.shared s.module config out
    simp only [Streams.step, Option.some.injEq] at hstep
    generalize VideoPassthrough.reconfigure s.shared s.module config out = r at hsizes hstep
    obtain ⟨result, shared, module⟩ := r
    subst hstep
    obtain ⟨hqueue, hmax, hcfg, cfg, hvpt⟩ := hsizes
    have hbytes : module.vpt.framebytes = s.module.vpt.framebytes := by
      rcases hvpt with heq | heq <;> rw [heq]
      rfl
    exact ⟨hmax.trans hsized.max_frame_size, fun f hf => hsized.frames f (hqueue ▸ hf),
      (congrArg _ hcfg).trans hsized.cfg, (congrArg _ hbytes).trans hsized.framebytes, hsized.codec⟩
  | «open» c param out =>
    simp only [Streams.step] at hstep
    split at hstep
    · cases hstep
    cases hstep
    unfold Streams.open
    cases hopen : vc_open s.module.vpt ((s.codec c).getD vc_alloc_codec) param out with
    | mk status rest =>
      refine hsized.set_codec c ?_
      split
      · rename_i hstatus
        subst hstatus
        intro vc hvc
        cases hvc
        exact hsized.cfg ▸ vc_open_sized hopen
      · simp
  | modify c avg_bps max_bps =>
    obtain ⟨vc, hvc, rfl⟩ := Option.map_eq_some_iff.mp hstep
    refine hsized.set_codec c fun vc' hvc' => ?_
    cases hvc'
    have hold := hsized.codec c vc hvc
    unfold vc_modify
    split
    · exact hold
    · exact ⟨hold.enc_buf, hold.dec_buf, hold.dec_buf_size⟩
  | encode_begin c force_keyframe input packetize out_size output =>
    obtain ⟨vc, hvc, hrest⟩ := Option.bind_eq_some_iff.mp hstep
    obtain ⟨b, hb, hbegin⟩ :=
      encode_begin_inBounds hsized hvc hsupplied force_keyframe packetize out_size output
    simp only [hb, Option.some.injEq] at hrest
    subst hrest
    obtain ⟨shared, hslot, hmax, hsuffix⟩ := hbegin.slot
    obtain ⟨epoch, hvpt⟩ := hbegin.only_keyed
    rw [hvpt, hslot]
    have hset : Streams.Sized size { s with codec := Function.update s.codec c (some b.encoded.vc) } := by
      refine hsized.set_codec c fun _ h => ?_
      cases h
      exact hbegin.sized (hsized.codec c vc hvc)
    exact ⟨hmax.trans hsized.max_frame_size, fun f hf => hsized.frames f (hsuffix.subset hf),
      hsized.cfg, hsized.framebytes, hset.codec⟩
  | encode_more c packetize out_size output =>
    obtain ⟨vc, hvc, rfl⟩ := Option.map_eq_some_iff.mp hstep
    have hkeeps := (vc_encode_more_cases vc s.module.vpt packetize out_size output).1
    obtain ⟨epoch, hvpt⟩ := hkeeps.vpt
    dsimp only
    rw [hvpt]
    have hset := hsized.set_codec c fun _ h => Option.some.inj h ▸ hkeeps.sized (hsized.codec c vc hvc)
    exact ⟨hset.max_frame_size, hset.frames, hset.cfg, hset.framebytes, hset.codec⟩
  | decode c unpacketize packets out_size output =>
    obtain ⟨vc, hvc, hrest⟩ := Option.bind_eq_some_iff.mp hstep
    obtain ⟨d, hd, hdsized⟩ := decode_inBounds hsized hvc hsupplied.1 (hsupplied.2 vc hvc) packets out_size
    simp only [hd, Option.some.injEq] at hrest
    subst hrest
    exact hsized.set_codec c fun _ h => by cases h; exact hdsized

/-- Where the sizes are right, Rust and C agree on them in each of the ways that
    count. -/
theorem Streams.Sized.agrees {config : PassthroughConfig} (hsize : config.max_frame_size = size) :
    s.Agrees config where
  framebytes := hsize ▸ hsized.framebytes
  accepted frame keyframe hresult := by
    rw [hsized.cfg, ← hsized.max_frame_size]
    exact (push_frame_sized s.shared frame keyframe (hsized.max_frame_size ▸ hsized.frames)).2.2 hresult
  peeked front hfront := by
    obtain ⟨rest, hframes⟩ := List.head?_eq_some_iff.mp hfront
    refine capture_peek_of_fits hframes ?_
    rw [hsized.cfg]
    exact hsized.frames front (List.mem_of_head? hfront)
  polled strm frame hexact := by
    have hbytes := hsized.framebytes
    have hcfg := hsized.cfg
    obtain ⟨hframe, hcap⟩ := hexact
    obtain ⟨r, hr, -⟩ := vd_get_frame_ok s.module.vpt frame (by omega) (by omega)
      (some s.shared) strm
    exact ⟨r, hr⟩
  encoded c vc hvc force_keyframe input packetize out_size output hexact := by
    obtain ⟨b, hb, -⟩ := encode_begin_inBounds hsized hvc hexact force_keyframe packetize out_size output
    exact ⟨b, hb⟩
  decoded c vc hvc unpacketize packets out_size output hexact hbounds := by
    obtain ⟨d, hd, -⟩ := decode_inBounds hsized hvc hexact hbounds packets out_size
    exact ⟨d, hd⟩

end Sized

/-- A successful install leaves its own queue in the slot, and C with its own
    configuration. -/
theorem install_ok {p p' : Process} {config : PassthroughConfig} {out : InitOutcome} {k : Nat}
    (hinstall : VideoPassthrough.install p config out = (.ok k, p')) :
    p'.shared = some (.new config) ∧
      p'.module.vpt.cfg = c_config config ∧
      p'.module.vpt.framebytes = UInt32.ofNat AU_HDR_SIZE + (c_config config).max_frame_size ∧
      p'.module.vpt.cb = install_callbacks ∧ p'.module.vpt.inited = true ∧
      p'.module.vpt.source_epoch = 1 ∧ p'.module.vpt.keyed_epoch = 0 := by
  unfold VideoPassthrough.install at hinstall
  cases hinit : pjrs_vpt_init p.module (c_config config) install_callbacks out with
  | mk status module =>
    simp only [hinit] at hinstall
    by_cases hstatus : status = .PJ_SUCCESS
    · subst hstatus
      cases hinstall
      obtain ⟨-, -, -, pool, hvpt⟩ := pjrs_vpt_init_success hinit
      rw [hvpt]
      refine ⟨?_, rfl, rfl, rfl, rfl, rfl, rfl⟩
      simp [Process.shared]
    · simp [check_status, hstatus] at hinstall

/-- The size of a frame does not wrap where it fits 32 bits. -/
theorem framebytes_toNat {config : PassthroughConfig} (hlt : config.max_frame_size + AU_HDR_SIZE < 2 ^ 32) :
    (UInt32.ofNat AU_HDR_SIZE + (c_config config).max_frame_size).toNat =
      AU_HDR_SIZE + config.max_frame_size := by
  have hmax := c_config_max_frame_size (show config.max_frame_size < 2 ^ 32 by omega)
  rw [UInt32.toNat_add, hmax, show (UInt32.ofNat AU_HDR_SIZE).toNat = AU_HDR_SIZE from rfl]
  omega

/-- After a successful install, Rust and C agree on the sizes throughout, in every
    run, exactly where a frame of the largest size still has a size that fits 32
    bits. The run may push, poll, open, encode, decode and reconfigure in any order;
    PJMEDIA is only assumed to supply frames as large as the device says and to
    decode within its buffer. Nothing is assumed of the configuration but that it
    installs. -/
theorem sizes_agree_iff {p p' : Process} {config : PassthroughConfig} {out : InitOutcome} {k : Nat}
    (hinstall : VideoPassthrough.install p config out = (.ok k, p')) :
    p'.shared = some (.new config) ∧
      ((∀ s, (streams (.new config) p'.module).Reach Supplied s → s.Agrees config) ↔
        config.max_frame_size + AU_HDR_SIZE < 2 ^ 32) := by
  obtain ⟨hshared, hcfg, hbytes, -⟩ := install_ok hinstall
  refine ⟨hshared, fun hagrees => ?_, fun hlt s hreach => ?_⟩
  · have hstart := (hagrees _ .start).framebytes
    have hlt := p'.module.vpt.framebytes.toNat_lt
    change p'.module.vpt.framebytes.toNat = _ at hstart
    omega
  · have hsized : s.Sized config.max_frame_size := by
      refine hreach.invariant (P := Streams.Sized config.max_frame_size) ?_
        fun _ _ _ _ hok hstep hsized => hsized.step hok hstep
      refine ⟨rfl, by simp [streams, Shared.new], ?_, ?_, by simp [streams]⟩
      · rw [streams, hcfg]
        exact c_config_max_frame_size (by omega)
      · rw [streams, hbytes]
        exact framebytes_toNat hlt
    exact hsized.agrees rfl

/-- With the default configuration the sizes agree. -/
theorem sizes_agree_default :
    ∃ k p', VideoPassthrough.install installs.start {} {} = (.ok k, p') ∧
      ∀ s, (streams (.new {}) p'.module).Reach Supplied s → s.Agrees {} := by
  have hinstall : VideoPassthrough.install installs.start {} {} =
      (.ok 0, (VideoPassthrough.install installs.start {} {}).2) := rfl
  exact ⟨0, _, hinstall, (sizes_agree_iff hinstall).2.mpr (by decide)⟩

/-- A configuration with no limit on the frame size, as far as `usize` goes. -/
def no_limit : PassthroughConfig := { max_frame_size := 2 ^ 64 - 1 }

/-- With no limit, the install succeeds and the size of a frame wraps: the C side is
    left with frames smaller than what Rust accepts. -/
theorem not_sizes_agree :
    ¬ ∀ (p p' : Process) (config : PassthroughConfig) (out : InitOutcome) (k : Nat),
      VideoPassthrough.install p config out = (.ok k, p') →
      ∀ s, (streams (.new config) p'.module).Reach Supplied s → s.Agrees config := by
  intro hclaim
  have hagrees := hclaim installs.start _ no_limit {} 0 rfl _ .start
  exact absurd hagrees.framebytes (by decide)

end pjsua_rust.video_passthrough
