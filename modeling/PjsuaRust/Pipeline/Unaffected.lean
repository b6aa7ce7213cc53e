import PjsuaRust.Passthrough.Sizes
import PjsuaRust.Pipeline.Order
import PjsuaRust.Transition.Observe

open pjsua_rust.video transition

namespace pjsua_rust.video_passthrough

/-- The streams in use, with the clock of the capture device they are fed from. -/
structure Serving where
  streams : Streams
  clock : vpt_stream

inductive ServingOp where
  | call (op : StreamOp)
  | poll (frame : pjmedia_frame)

/-- One call, or one poll of the capture device. -/
def Serving.step (s : Serving) : ServingOp → Option Serving
  | .call op => (s.streams.step op).map fun streams => { s with streams }
  | .poll frame =>
    match vd_get_frame s.streams.module.vpt (some s.streams.shared) s.clock frame with
    | .error _ => none
    | .ok (_, clock, _) => some { s with clock }

def serving (shared : Shared) (module : Module) : Machine Serving ServingOp where
  start := { streams := (streams shared module).start, clock := ⟨0, 0⟩ }
  step := Serving.step

/-- A notification but for the frame rate it carries, which is that of the
    configuration in force and not of the stream. -/
def Callback.rateless : Callback → Callback
  | .encoder_open info => .encoder_open { info with fps_num := 0 }
  | c => c

/-- What a call shows to PJMEDIA and to the application. -/
inductive Shown where
  | pushed (result requested : Bool)
  | opened (status : pj_status_t) (callbacks : List Callback)
  | modified (callbacks : List Callback)
  | encoded (status : pj_status_t) (output : Output) (has_more : Bool) (callbacks : List Callback)
      (consumed : Option au_hdr)
  | decoded (status : pj_status_t) (output : pjmedia_frame) (callbacks : List Callback)
  | polled (status : pj_status_t) (frame : pjmedia_frame)

def Encoded.shown (e : Encoded) (consumed : Option au_hdr) : Shown :=
  .encoded e.status e.output e.has_more e.callbacks consumed

def Serving.shows (s : Serving) : ServingOp → Option Shown
  | .call (.push_frame frame keyframe) =>
    let pushed := VideoPassthrough.push_frame s.streams.shared frame keyframe
    some (.pushed pushed.result pushed.requested)
  | .call .clear => none
  | .call (.reconfigure ..) => none
  | .call (.open c param out) =>
    let (status, _, callbacks) := vc_open s.streams.module.vpt ((s.streams.codec c).getD vc_alloc_codec) param out
    some (.opened status (callbacks.map Callback.rateless))
  | .call (.modify c avg_bps max_bps) =>
    (s.streams.codec c).map fun vc =>
      .modified ((vc_modify s.streams.module.vpt vc avg_bps max_bps).2.map Callback.rateless)
  | .call (.encode_begin c force_keyframe input packetize out_size output) =>
    (s.streams.codec c).bind fun vc =>
      match vc_encode_begin vc s.streams.module.vpt (some s.streams.shared) force_keyframe input packetize out_size
        output with
      | .error _ => none
      | .ok b => some (b.encoded.shown b.consumed)
  | .call (.encode_more c packetize out_size output) =>
    (s.streams.codec c).map fun vc =>
      (vc_encode_more vc s.streams.module.vpt packetize out_size output).shown none
  | .call (.decode c unpacketize packets out_size output) =>
    (s.streams.codec c).bind fun vc =>
      match vc_decode vc s.streams.module.vpt unpacketize packets out_size output with
      | .error _ => none
      | .ok d => some (.decoded d.status d.output d.callbacks)
  | .poll frame =>
    match vd_get_frame s.streams.module.vpt (some s.streams.shared) s.clock frame with
    | .error _ => none
    | .ok (status, _, frame) => some (.polled status frame)

/-- The part of the module's state that streams depend on. -/
def vpt_state.seen (vpt : vpt_state) : vpt_state :=
  { vpt_state.zero with
    inited := vpt.inited
    cb := vpt.cb
    cfg := { vpt_state.zero.cfg with max_frame_size := vpt.cfg.max_frame_size }
    framebytes := vpt.framebytes
    source_epoch := vpt.source_epoch
    keyed_epoch := vpt.keyed_epoch }

/-- What streams see of a state in which the codec factory is registered. -/
def Serving.seen (s : Serving) : Serving :=
  { s with streams := { s.streams with
      module := { Module.zero with vpt := s.streams.module.vpt.seen, codec_registered := true } } }

def Encoded.seen (e : Encoded) : Encoded := { e with vpt := e.vpt.seen }

def Begun.seen (b : Begun) : Begun := { b with encoded := b.encoded.seen }

section Seen

variable (vc : vpt_codec) (vpt : vpt_state) (packetize : Packetizer) (out_size : Nat) (output : Output)

theorem drop_oversized_seen : drop_oversized vc vpt.seen output = (drop_oversized vc vpt output).seen := rfl

/-- A further packet does not depend on what is hidden from the streams, and changes
    it in neither case. -/
theorem vc_encode_more_seen :
    vc_encode_more vc vpt.seen packetize out_size output = (vc_encode_more vc vpt packetize out_size output).seen := by
  unfold vc_encode_more
  split
  · rfl
  split
  · rfl
  · split
    · exact drop_oversized_seen vc vpt output
    · dsimp only
      split <;> rfl

/-- Nor does the first packet, with the check of its size in front of it. -/
theorem encode_send_seen (input : pjmedia_frame) (hdr : au_hdr) (epoch : UInt32) (keyed : Bool) :
    encode_send vc vpt.seen input hdr epoch keyed packetize out_size output =
      (encode_send vc vpt input hdr epoch keyed packetize out_size output).map Encoded.seen := by
  unfold encode_send
  cases encode_ready vc input hdr epoch keyed with
  | error e => rfl
  | ok r =>
    obtain ⟨send, vc'⟩ := r
    cases send with
    | false => rfl
    | true =>
      simp only [bind, Except.bind, Bool.not_true, Bool.false_eq_true, if_false]
      split
      · exact congrArg Except.ok (drop_oversized_seen _ _ _)
      · have hkeyed : (if vc'.enc_key then set_keyed vpt.seen epoch else vpt.seen) =
            (if vc'.enc_key then set_keyed vpt epoch else vpt).seen := by
          split <;> rfl
        rw [hkeyed]
        exact congrArg Except.ok (vc_encode_more_seen _ _ _ _ _)

/-- An encode answers the same and has the same effects on the queue and the codec.
    It reads the epochs, the sizes and the callbacks, and nothing else of the
    module. -/
theorem vc_encode_begin_seen (slot : Option Shared) (force_keyframe : Bool) (input : pjmedia_frame) :
    vc_encode_begin vc vpt.seen slot force_keyframe input packetize out_size output =
      (vc_encode_begin vc vpt slot force_keyframe input packetize out_size output).map Begun.seen := by
  unfold vc_encode_begin
  split
  · rfl
  cases encode_input vc input with
  | error e => rfl
  | ok r =>
    cases r with
    | none => rfl
    | some hdr =>
      simp only [bind, Except.bind]
      have hepochs : read_epochs vpt.seen = read_epochs vpt := rfl
      rw [hepochs, encode_send_seen]
      cases encode_send (encode_take vc hdr) vpt input hdr (read_epochs vpt).1 (read_epochs vpt).2 packetize out_size
          output <;> rfl

/-- A poll reads the payload and the sizes only. -/
theorem vd_get_frame_seen (slot : Option Shared) (strm : vpt_stream) (frame : pjmedia_frame) :
    vd_get_frame vpt.seen slot strm frame = vd_get_frame vpt slot strm frame := rfl

/-- Decoding reads nothing of the module but its sizes. -/
theorem vc_decode_seen (unpacketize : Unpacketizer) (packets : List RtpPacket) (size : UInt32)
    (frame : pjmedia_frame) :
    vc_decode vc vpt.seen unpacketize packets size frame = vc_decode vc vpt unpacketize packets size frame := rfl

/-- The callbacks of an open differ at most in the rate they tell. -/
theorem notify_open_seen (prm : pjmedia_vid_codec_param) :
    (notify_open vpt.seen prm).map Callback.rateless = (notify_open vpt prm).map Callback.rateless := by
  unfold notify_open
  have hcb : vpt.seen.cb = vpt.cb := rfl
  rw [hcb]
  split <;> rfl

/-- An open comes to the same but for the frame rate notified. That one is read from
    the configuration, and tells the application what it asked for itself. -/
theorem vc_open_seen (param : pjmedia_vid_codec_param) (out : OpenOutcome) :
    (vc_open vpt.seen vc param out).1 = (vc_open vpt vc param out).1 ∧
      (vc_open vpt.seen vc param out).2.1 = (vc_open vpt vc param out).2.1 ∧
      (vc_open vpt.seen vc param out).2.2.map Callback.rateless =
        (vc_open vpt vc param out).2.2.map Callback.rateless := by
  unfold vc_open
  dsimp only
  split
  · exact ⟨rfl, rfl, rfl⟩
  split
  · exact ⟨rfl, rfl, rfl⟩
  split
  · exact ⟨rfl, rfl, rfl⟩
  · refine ⟨rfl, rfl, ?_⟩
    rw [List.map_append, List.map_append, notify_open_seen]
    rfl

/-- Those of a modify too; the codec does not. -/
theorem vc_modify_seen (avg_bps max_bps : UInt32) :
    (vc_modify vpt.seen vc avg_bps max_bps).1 = (vc_modify vpt vc avg_bps max_bps).1 ∧
      (vc_modify vpt.seen vc avg_bps max_bps).2.map Callback.rateless =
        (vc_modify vpt vc avg_bps max_bps).2.map Callback.rateless := by
  unfold vc_modify
  cases vc.prm with
  | none => exact ⟨rfl, rfl⟩
  | some prm => exact ⟨rfl, notify_open_seen vpt _⟩

theorem pjrs_vpt_source_restarted_seen :
    pjrs_vpt_source_restarted vpt.seen = (pjrs_vpt_source_restarted vpt).seen := by
  unfold pjrs_vpt_source_restarted
  have hinited : vpt.seen.inited = vpt.inited := rfl
  rw [hinited]
  split <;> rfl

/-- A configuration of the same frame size is one the streams do not notice. -/
theorem replace_cfg_seen {cfg : pjrs_vpt_config} (hsize : cfg.max_frame_size = vpt.cfg.max_frame_size) :
    (replace_cfg vpt cfg).seen = vpt.seen := by
  simp only [vpt_state.seen, replace_cfg, set_fmtp_strings, hsize]

end Seen

/-- The calls that are not the streams' own. -/
def ServingOp.reconfigures : ServingOp → Bool
  | .call (.reconfigure ..) => true
  | _ => false

/-- A configuration that is taken keeps the length of the queue. -/
def KeepsQueue (s : Serving) : ServingOp → Prop
  | .call (.reconfigure config out) =>
    (VideoPassthrough.reconfigure s.streams.shared s.streams.module config out).1 = .ok () →
      max config.max_queue 1 = s.streams.shared.max_queue
  | _ => True

/-- An operation that needs no new codec, or finds the codec factory registered. -/
def ServingOp.HasCodec (s : Serving) : ServingOp → Prop
  | .call (.open c _ _) => ((s.streams.codec c).isNone && !s.streams.module.codec_registered) = false
  | _ => True

/-- While the codec factory is registered, there is a codec for every call. -/
theorem Serving.hasCodec_of_registered {s : Serving} (hregistered : s.streams.module.codec_registered = true)
    (op : ServingOp) : op.HasCodec s := by
  unfold ServingOp.HasCodec
  split
  · rw [hregistered, Bool.not_true, Bool.and_false]
  · trivial

/-- A step that is taken had its codec: one that was open, or a new one from the
    registered factory. -/
theorem Serving.hasCodec_of_step {s t : Serving} {op : ServingOp} (hstep : s.step op = some t) : op.HasCodec s := by
  unfold ServingOp.HasCodec
  split
  · simp only [Serving.step, Streams.step] at hstep
    split at hstep
    · cases hstep
    · rename_i hcodec
      exact Bool.eq_false_of_not_eq_true hcodec
  · trivial

/-- What is open takes each step as if the rest of the configuration were not
    there, and so does the open of a new codec while the factory is registered. -/
theorem Serving.step_seen (s : Serving) (op : ServingOp) (hop : op.reconfigures = false) (hcodec : op.HasCodec s) :
    s.seen.step op = (s.step op).map Serving.seen := by
  obtain ⟨⟨shared, module, codec⟩, clock⟩ := s
  cases op with
  | poll frame =>
    simp only [Serving.step, Serving.seen, vd_get_frame_seen]
    cases vd_get_frame module.vpt (some shared) clock frame <;> rfl
  | call op =>
    simp only [Serving.step, Option.map_map, Serving.seen]
    cases op with
    | push_frame => rfl
    | clear =>
      simp only [Streams.step, VideoPassthrough.clear, pjrs_vpt_source_restarted_seen]
      rfl
    | reconfigure => cases hop
    | «open» c param out =>
      obtain ⟨hstatus, hvc, -⟩ := vc_open_seen ((codec c).getD vc_alloc_codec) module.vpt param out
      simp only [ServingOp.HasCodec] at hcodec
      simp only [Streams.step, hcodec, Bool.not_true, Bool.and_false, Bool.false_eq_true, if_false, Streams.open, hstatus,
        hvc]
      rfl
    | modify c avg_bps max_bps =>
      simp only [Streams.step]
      cases codec c with
      | none => rfl
      | some vc =>
        simp only [Option.map_some, (vc_modify_seen vc module.vpt avg_bps max_bps).1]
        rfl
    | encode_begin c force_keyframe input packetize out_size output =>
      simp only [Streams.step]
      cases codec c with
      | none => rfl
      | some vc =>
        simp only [Option.bind_some, vc_encode_begin_seen]
        cases vc_encode_begin vc module.vpt (some shared) force_keyframe input packetize out_size output <;> rfl
    | encode_more c packetize out_size output =>
      simp only [Streams.step]
      cases codec c with
      | none => rfl
      | some vc =>
        simp only [Option.map_some, vc_encode_more_seen]
        rfl
    | decode c unpacketize packets out_size output =>
      simp only [Streams.step]
      cases codec c with
      | none => rfl
      | some vc =>
        simp only [Option.bind_some, vc_decode_seen]
        cases vc_decode vc module.vpt unpacketize packets out_size output <;> rfl

/-- What an operation shows does not depend on what is hidden, whether it can be
    taken or not. -/
theorem Serving.shows_seen (s : Serving) (op : ServingOp) : s.seen.shows op = s.shows op := by
  obtain ⟨⟨shared, module, codec⟩, clock⟩ := s
  cases op with
  | poll frame =>
    simp only [Serving.shows, Serving.seen, vd_get_frame_seen]
  | call op =>
    cases op with
    | push_frame => rfl
    | clear => rfl
    | reconfigure => rfl
    | «open» c param out =>
      obtain ⟨hstatus, -, hcallbacks⟩ := vc_open_seen ((codec c).getD vc_alloc_codec) module.vpt param out
      simp only [Serving.shows, Serving.seen, hstatus, hcallbacks]
    | modify c avg_bps max_bps =>
      simp only [Serving.shows, Serving.seen, (vc_modify_seen _ module.vpt avg_bps max_bps).2]
    | encode_begin c force_keyframe input packetize out_size output =>
      simp only [Serving.shows, Serving.seen, vc_encode_begin_seen]
      cases codec c with
      | none => rfl
      | some vc =>
        simp only [Option.bind_some]
        cases vc_encode_begin vc module.vpt (some shared) force_keyframe input packetize out_size output <;> rfl
    | encode_more c packetize out_size output =>
      simp only [Serving.shows, Serving.seen, vc_encode_more_seen]
      rfl
    | decode c unpacketize packets out_size output =>
      simp only [Serving.shows, Serving.seen, vc_decode_seen]

/-- A reconfiguration leaves everything in sight of the streams as it was, whatever
    it comes to, if it keeps the length of the queue. It may leave the codec factory
    unregistered, which what is open does not see. -/
theorem Serving.reconfigure_seen {s t : Serving} {config : PassthroughConfig} {out : ReconfigureOutcome}
    (hkeeps : KeepsQueue s (.call (.reconfigure config out)))
    (hstep : s.step (.call (.reconfigure config out)) = some t) : t.seen = s.seen := by
  obtain ⟨⟨shared, module, codec⟩, clock⟩ := s
  simp only [KeepsQueue, VideoPassthrough.reconfigure] at hkeeps
  simp only [Serving.step, Streams.step, VideoPassthrough.reconfigure, Option.map_some, Option.some.injEq] at hstep
  have hvpt : (pjrs_vpt_reconfigure module (c_config config) out).2.vpt.seen = module.vpt.seen := by
    rcases pjrs_vpt_reconfigure_vpt module (c_config config) out with hsame | ⟨hsize, hreplaced⟩
    · rw [hsame]
    · rw [hreplaced, replace_cfg_seen module.vpt hsize]
  rw [← hstep]
  cases hstatus : check_status (pjrs_vpt_reconfigure module (c_config config) out).1 with
  | error e =>
    simp only [Serving.seen, hvpt]
  | ok u =>
    rw [hstatus] at hkeeps
    simp only [Serving.seen, hvpt, hkeeps rfl]

/-- Of the steps only a reconfiguration touches the registration of the codec
    factory. -/
theorem Serving.registered_of_step {s t : Serving} {op : ServingOp} (hop : op.reconfigures = false)
    (hstep : s.step op = some t) : t.streams.module.codec_registered = s.streams.module.codec_registered := by
  cases op with
  | poll frame =>
    simp only [Serving.step] at hstep
    split at hstep
    · cases hstep
    · cases hstep
      rfl
  | call op =>
    obtain ⟨streams, hstreams, rfl⟩ := Option.map_eq_some_iff.mp hstep
    cases op with
    | push_frame | clear =>
      cases hstreams
      rfl
    | reconfigure => cases hop
    | «open» =>
      simp only [Streams.step] at hstreams
      split at hstreams
      · cases hstreams
      · cases hstreams
        rfl
    | modify | encode_more =>
      obtain ⟨vc, -, rfl⟩ := Option.map_eq_some_iff.mp hstreams
      rfl
    | encode_begin | decode =>
      obtain ⟨vc, -, hcall⟩ := Option.bind_eq_some_iff.mp hstreams
      split at hcall
      · cases hcall
      · cases hcall
        rfl

/-- A run and the same run without its reconfigurations look the same to the
    streams. In the latter the codec factory stays registered. -/
structure Serving.Alike (s s' : Serving) : Prop where
  seen : s'.seen = s.seen
  registered : s'.streams.module.codec_registered = true

/-- Reconfigurations that keep the length of the queue hide: a step that is none
    goes through without them as well, and shows the same. Without them the factory
    is always registered, so that an open that went through still does. -/
theorem serving_hides (shared : Shared) (module : Module) :
    (serving shared module).Hides KeepsQueue ServingOp.reconfigures Serving.shows Serving.Alike where
  step s s' op t halike hop hstep := by
    have hstep' := s'.step_seen op hop (Serving.hasCodec_of_registered halike.registered op)
    rw [halike.seen, s.step_seen op hop (Serving.hasCodec_of_step hstep)] at hstep'
    change s.step op = some t at hstep
    rw [hstep, Option.map_some] at hstep'
    obtain ⟨t', ht', hseen⟩ := Option.map_eq_some_iff.mp hstep'.symm
    exact ⟨t', ht', hseen, (Serving.registered_of_step hop ht').trans halike.registered⟩
  shows s s' op halike _ := by rw [← s'.shows_seen, halike.seen, s.shows_seen]
  hidden s s' op t halike hop hkeeps hstep := by
    cases op with
    | poll => cases hop
    | call op =>
      cases op with
      | reconfigure config out =>
        have hseen := Serving.reconfigure_seen hkeeps hstep
        exact ⟨⟨halike.seen.trans hseen.symm, halike.registered⟩, rfl⟩
      | _ => cases hop

/-- Streams do not notice a reconfiguration, whatever is open and whenever it
    comes: take all of them out of a run, and every push, poll, encode and decode
    answers as before. The codec factory is registered at the start. A
    reconfiguration may fail in every way, and may leave the factory unregistered,
    where no new codec can be opened; it must not change the length of the queue.
    Nothing is assumed of the frames, the packetizer or the order of the calls. -/
theorem streams_unaffected (shared : Shared) {module : Module} (hregistered : module.codec_registered = true)
    {ops : List ServingOp} {t : Serving}
    (hkeeps : (serving shared module).Admits KeepsQueue (serving shared module).start ops)
    (hexec : (serving shared module).exec (serving shared module).start ops = some t) :
    ∃ t', (serving shared module).exec (serving shared module).start (ops.filter (!·.reconfigures)) = some t' ∧
      t'.seen = t.seen ∧
      (serving shared module).outputs Serving.shows (serving shared module).start (ops.filter (!·.reconfigures)) =
        (serving shared module).outputs Serving.shows (serving shared module).start ops := by
  obtain ⟨t', hexec', halike, houtputs⟩ := (serving_hides shared module).erase ⟨rfl, hregistered⟩ hkeeps hexec
  exact ⟨t', hexec', halike.seen, houtputs⟩

open pjsua_rust.sending (small_config small_module whole)

/-- The frame a poll of one queued byte leaves. -/
def one_byte_frame : pjmedia_frame :=
  { pjmedia_frame.zero 17 with
    type := .VIDEO
    buf := {
      cap := 17
      hdr := { magic := AU_MAGIC, seq := 1, len := 1, flags := AU_FLAG_KEYFRAME }
      body := [0x65]
      length_body := rfl } }

/-- A keyframe is sent across a change of size and frame rate, and one across a
    change after which the codec manager does not take the factory back. -/
def reconfigured_between : List ServingOp :=
  [.call (.open 0 sendrecv_param mode_1), .call (.push_frame [0x65] true),
    .call (.reconfigure { small_config with width := 800, height := 600, fps := 30 } {}), .poll (.zero 17),
    .call (.encode_begin 0 false one_byte_frame whole 1400 {}), .call (.push_frame [0x65] true),
    .call (.reconfigure { small_config with width := 640, fps := 30 } { register := .PJ_ENOMEM }), .poll (.zero 17)]

theorem reconfigured_between_admitted :
    (serving (.new small_config) small_module).Admits KeepsQueue (serving (.new small_config) small_module).start
      reconfigured_between :=
  .cons rfl trivial <| .cons rfl trivial <| .cons rfl (fun _ => rfl) <| .cons rfl trivial <| .cons rfl trivial <|
    .cons rfl trivial <| .cons rfl (fun _ => rfl) <| .cons rfl trivial trivial

/-- Two reconfigurations between the frames of a stream: one to a wider picture, and
    one that fails and leaves the factory unregistered. -/
theorem streams_unaffected_reconfigured :
    ∃ t t', (serving (.new small_config) small_module).exec (serving (.new small_config) small_module).start
        reconfigured_between = some t ∧
      t.streams.module.vpt.cfg.fps = 30 ∧ t.streams.module.codec_registered = false ∧
      (serving (.new small_config) small_module).exec (serving (.new small_config) small_module).start
        (reconfigured_between.filter (!·.reconfigures)) = some t' ∧
      (serving (.new small_config) small_module).outputs Serving.shows (serving (.new small_config) small_module).start
          (reconfigured_between.filter (!·.reconfigures)) =
        (serving (.new small_config) small_module).outputs Serving.shows
          (serving (.new small_config) small_module).start reconfigured_between := by
  obtain ⟨t, hexec, hfps, hgone⟩ : ∃ t, (serving (.new small_config) small_module).exec
      (serving (.new small_config) small_module).start reconfigured_between = some t ∧
      t.streams.module.vpt.cfg.fps = 30 ∧ t.streams.module.codec_registered = false := ⟨_, rfl, rfl, rfl⟩
  have hregistered : small_module.codec_registered = true := rfl
  obtain ⟨t', hexec', -, houtputs⟩ := streams_unaffected (.new small_config) hregistered
    reconfigured_between_admitted hexec
  exact ⟨t, t', hexec, hfps, hgone, hexec', houtputs⟩

end pjsua_rust.video_passthrough
