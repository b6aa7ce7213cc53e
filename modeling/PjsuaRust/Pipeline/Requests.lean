import PjsuaRust.Pipeline.Drain

open pjsua_rust.video pjsua_rust.video_passthrough transition feeds

namespace pjsua_rust.sending

/-- The calls out to the application that one call makes. -/
def Pipeline.callbacks (s : Pipeline) : PipelineOp → List Callback
  | .push_frame frame keyframe =>
    if (VideoPassthrough.push_frame s.shared frame keyframe).requested then [.keyframe_request] else []
  | .open param out => s.codec.elim [] fun vc => (vc_open s.module.vpt vc param out).2.2
  | .modify avg_bps max_bps => s.codec.elim [] fun vc => (vc_modify s.module.vpt vc avg_bps max_bps).2
  | .close => s.codec.elim [] (vc_close s.module.vpt)
  | .encode_begin force_keyframe packetize out_size output =>
    s.codec.elim [] fun vc =>
      match vc_encode_begin vc s.module.vpt (some s.shared) force_keyframe s.bridge packetize out_size output with
      | .error _ => []
      | .ok b => b.encoded.callbacks
  | .encode_more packetize out_size output =>
    s.codec.elim [] fun vc => (vc_encode_more vc s.module.vpt packetize out_size output).callbacks
  | _ => []

/-- Whether the application owes a keyframe after a call: it was asked for one or
    restarted its source, and none of its keyframes was accepted since. -/
def Pipeline.owes (s : Pipeline) (owed : Bool) (op : PipelineOp) : Bool :=
  match op with
  | .push_frame frame true => owed && !(VideoPassthrough.push_frame s.shared frame true).result
  | .clear => true
  | op => owed || (s.callbacks op).contains .keyframe_request

/-- A sending call, with what the application owes it. -/
structure Asking where
  pipeline : Pipeline
  owed : Bool

def Asking.step (s : Asking) (op : PipelineOp) : Option Asking :=
  (s.pipeline.step op).map fun t => { pipeline := t, owed := s.pipeline.owes s.owed op }

def asking (config : PassthroughConfig) (module : Module) : Machine Asking PipelineOp where
  start := { pipeline := (pipeline config module).start, owed := false }
  step := Asking.step

/-- A run whose codecs are opened to encode. -/
def Encoding (s : Asking) (op : PipelineOp) : Prop :=
  Fresh s.pipeline op ∧
    match op with
    | .open param _ => param.dir.encoding = true
    | _ => True

/-- A keyframe is queued. -/
def KeyQueued (s : Pipeline) : Prop := ∃ q ∈ s.shared.queue.frames, q.keyframe = true

/-- Whenever the open codec waits for a keyframe, one is owed or queued. -/
def Answered (s : Pipeline) (owed : Bool) : Prop :=
  s.is_open = true → ∀ vc ∈ s.codec, s.keyed vc = false → owed = true ∨ KeyQueued s

/-- A step is one of the pipeline, with what the application owes kept beside it. -/
theorem Asking.step_eq_some {s t : Asking} {op : PipelineOp} (hstep : s.step op = some t) :
    s.pipeline.step op = some t.pipeline ∧ t.owed = s.pipeline.owes s.owed op := by
  obtain ⟨u, hu, rfl⟩ := Option.map_eq_some_iff.mp hstep
  exact ⟨hu, rfl⟩

section

variable {size : Nat} {s t : Pipeline} {f : Feed Accepted} {owed : Bool}

/-- A push keeps a queued keyframe, or asks for one; a keyframe that it accepts
    is queued. -/
theorem push_frame_answered {self : Shared} (frame : List UInt8) (keyframe : Bool)
    (hqueued : owed = true ∨ ∃ q ∈ self.queue.frames, q.keyframe = true) :
    let pushed := VideoPassthrough.push_frame self frame keyframe
    pushed.requested = true ∨ (∃ q ∈ pushed.shared.queue.frames, q.keyframe = true) ∨
      owed = true ∧ (keyframe = true → pushed.result = false) := by
  have hstep := VideoPassthrough.push_frame_step self frame keyframe
  generalize VideoPassthrough.push_frame self frame keyframe = pushed at hstep
  cases hstep with
  | size => exact .inr (hqueued.symm.imp_right fun h => ⟨h, fun _ => rfl⟩)
  | waiting => exact .inr (hqueued.symm.imp_right fun h => ⟨h, fun _ => rfl⟩)
  | flushed => exact .inl rfl
  | accepted hframe hneed kept hkept =>
    right
    dsimp only [Queue.push_back]
    cases keyframe with
    | true => exact .inl ⟨_, List.mem_append_right _ List.mem_cons_self, rfl⟩
    | false =>
      rcases hqueued with howed | ⟨q, hq, hkey⟩
      · exact .inr ⟨howed, by simp⟩
      · left
        cases hkept with
        | room => exact ⟨q, List.mem_append_left _ hq, hkey⟩
        | newest_key _ i hfound =>
          obtain ⟨x, rest, hdrop, hx⟩ := rposition_eq_some hfound
          refine ⟨x, List.mem_append_left _ ?_, hx⟩
          rw [hdrop]
          exact List.mem_cons_self
        | none _ hkeyframe => cases hkeyframe

/-- What was owed before a step, or asked for in it, is owed after it, unless the
    step pushes a keyframe. -/
theorem not_owes_of_ask {op : PipelineOp} (hpush : ∀ frame, op ≠ .push_frame frame true)
    (hask : owed = true ∨ .keyframe_request ∈ s.callbacks op) : s.owes owed op = true := by
  have hor : (owed || (s.callbacks op).contains .keyframe_request) = true := by
    rw [Bool.or_eq_true, List.contains_iff_mem]
    exact hask
  unfold Pipeline.owes
  split
  · exact absurd rfl (hpush _)
  · rfl
  · exact hor

/-- An access unit that is dropped is asked for again. The callback is assumed to be
    there, as it is after an install. -/
theorem vc_encode_more_asks {vpt : vpt_state} (hcb : vpt.cb.keyframe_request = true) (vc : vpt_codec)
    (packetize : Packetizer) (out_size : Nat) (output : Output)
    (hdropped : (vc_encode_more vc vpt packetize out_size output).fate = .dropped) :
    .keyframe_request ∈ (vc_encode_more vc vpt packetize out_size output).callbacks := by
  unfold vc_encode_more at hdropped ⊢
  split at hdropped
  · cases hdropped
  rename_i hout
  rw [if_neg hout]
  split at hdropped
  · cases hdropped
  · rename_i hrest
    rw [if_neg hrest]
    split at hdropped
    · simp only [drop_oversized, request_keyframe, hcb, if_true, List.mem_singleton]
    · split at hdropped <;> cases hdropped

/-- An access unit that is dropped before its first packet makes the codec ask for a
    keyframe. -/
theorem encode_send_asks {vc : vpt_codec} {vpt : vpt_state} (hcb : vpt.cb.keyframe_request = true)
    {input : pjmedia_frame} {hdr : au_hdr} {epoch : UInt32} {keyed : Bool} {packetize : Packetizer} {out_size : Nat}
    {output : Output} {e : Encoded}
    (hsend : encode_send vc vpt input hdr epoch keyed packetize out_size output = .ok e)
    (hdropped : e.fate = .dropped) : .keyframe_request ∈ e.callbacks := by
  unfold encode_send at hsend
  obtain ⟨⟨send, vc'⟩, hready, hrest⟩ := except_bind_ok hsend
  dsimp only at hrest
  split at hrest
  · cases hrest
    cases hdropped
  split at hrest
  · cases hrest
    simp only [drop_oversized, request_keyframe, hcb, if_true, List.mem_singleton]
  · cases hrest
    refine vc_encode_more_asks ?_ _ _ _ _ hdropped
    split <;> exact hcb

/-- The same of the whole call: whatever it drops, it asks for a keyframe, whether
    the access unit was too large or the packetizer refused it. -/
theorem vc_encode_begin_asks {vc : vpt_codec} {vpt : vpt_state} (hcb : vpt.cb.keyframe_request = true)
    {slot : Option Shared} {force_keyframe : Bool} {input : pjmedia_frame} {packetize : Packetizer} {out_size : Nat}
    {output : Output} {b : Begun}
    (hbegin : vc_encode_begin vc vpt slot force_keyframe input packetize out_size output = .ok b)
    (hdropped : b.encoded.fate = .dropped) : .keyframe_request ∈ b.encoded.callbacks := by
  unfold vc_encode_begin at hbegin
  split at hbegin
  · cases hbegin
    cases hdropped
  obtain ⟨checked, -, hrest⟩ := except_bind_ok hbegin
  cases checked with
  | none =>
    cases hrest
    cases hdropped
  | some hdr =>
    obtain ⟨e, hsend, hrest⟩ := except_bind_ok hrest
    cases hrest
    exact List.mem_append_right _ (encode_send_asks hcb hsend hdropped)

/-- A call to `vc_encode_begin` in a run: what it leaves, and what of the queue. At
    most the front is taken, and only if it is the frame in the bridge. -/
theorem Represents.begun (hrep : Represents size s f) (hinv : f.Inv) {force_keyframe : Bool} {packetize : Packetizer}
    {out_size : Nat} {output : Output} (hfresh : ∀ h ∈ s.held, s.accepted.length ≤ h + 2 ^ 31)
    (hstep : s.step (.encode_begin force_keyframe packetize out_size output) = some t) :
    ∃ vc b, s.codec = some vc ∧ s.is_open = true ∧
      vc_encode_begin vc s.module.vpt (some s.shared) force_keyframe s.bridge packetize out_size output = .ok b ∧
      BeginStep vc s.module.vpt (some s.shared) s.bridge b ∧ t.codec = some b.encoded.vc ∧
      t.module.vpt = b.encoded.vpt ∧ t.shared = b.slot.getD s.shared ∧
      (t.shared.queue.frames = s.shared.queue.frames ∨
        s.shared.queue.frames = au_frame s.bridge :: t.shared.queue.frames) := by
  have hbytes := hrep.framebytes
  obtain ⟨hsize, hcap⟩ := hrep.exact
  obtain ⟨vc, hcodec, hopen, hencode⟩ := Pipeline.encode_begin_inv hstep
  obtain ⟨_, hvc, henc, -⟩ := hrep.codec hopen
  cases hcodec.symm.trans hvc
  obtain ⟨b, hb, hbegin⟩ := vc_encode_begin_ok vc s.module.vpt s.bridge (by omega) (by omega) (some s.shared)
    force_keyframe packetize out_size output
  obtain ⟨_, -, -, hmove, -, -, -⟩ := hrep.encode_begin hinv hfresh hstep
  simp only [Pipeline.encode_begin, hb, Option.some.injEq] at hencode
  subst hencode
  refine ⟨vc, b, hcodec, hopen, hb, hbegin, rfl, rfl, rfl, ?_⟩
  cases hmove with
  | refused hshared => exact .inl (congrArg (·.queue.frames) hshared)
  | taken _ _ _ h a _ hheld ha _ _ _ hqueue =>
    have hframe : a.frame = au_frame s.bridge := by
      obtain ⟨x, hx, hframe⟩ := hrep.bridge h (hrep.held.symm.trans hheld)
      rw [hrep.accepted] at ha
      cases ha.symm.trans hx
      exact hframe
    rcases hqueue with hsame | ⟨rest, hframes, hrest⟩
    · exact .inl (congrArg (·.frames) hsame)
    · right
      rw [hframes, hframe]
      exact congrArg (au_frame s.bridge :: ·) (congrArg (·.frames) hrest).symm

/-- Whether a codec waits depends on the epochs and on its own flags only. -/
theorem keyed_congr {vc vc' : vpt_codec} (hsource : t.module.vpt.source_epoch = s.module.vpt.source_epoch)
    (hkeyed : t.module.vpt.keyed_epoch = s.module.vpt.keyed_epoch) (hepoch : vc'.enc_epoch = vc.enc_epoch)
    (hsent : vc'.enc_sent_key = vc.enc_sent_key) : t.keyed vc' = s.keyed vc := by
  rw [Pipeline.keyed, Pipeline.keyed, sent_key, sent_key, hsource, hkeyed, hepoch, hsent]

/-- After an encode that takes a frame, its codec waits exactly if the frame was
    not handed over. -/
theorem keyed_of_sent {vc : vpt_codec} {hdr : au_hdr} {e : Encoded}
    (hsent : EncodeSent (encode_take vc hdr) s.module.vpt hdr s.module.vpt.source_epoch
      (s.module.vpt.keyed_epoch == s.module.vpt.source_epoch) e) (hvpt : t.module.vpt = e.vpt) :
    t.keyed e.vc = e.vc.enc_sent_key := by
  obtain ⟨epoch, hkept⟩ := hsent.keeps.vpt
  rw [Pipeline.keyed, sent_key, hsent.enc_epoch, hvpt, hkept, if_neg fun hne => hne rfl]

end

section Answered

variable {size : Nat} {s t : Pipeline} {f : Feed Accepted} {owed : Bool}

/-- A call that keeps the queue and the flag the open codec acts on. What is owed
    before it is owed after it, or more. -/
theorem Answered.keep {owed' : Bool} (hanswered : Answered s owed) (howed : owed = true → owed' = true)
    (hqueue : KeyQueued s → KeyQueued t)
    (hkeyed : t.is_open = true → ∀ vc' ∈ t.codec, t.keyed vc' = false →
      s.is_open = true ∧ ∃ vc ∈ s.codec, s.keyed vc = false) : Answered t owed' := by
  intro hopen vc' hvc' hwaits
  obtain ⟨hopen', vc, hvc, hwaits'⟩ := hkeyed hopen vc' hvc' hwaits
  exact (hanswered hopen' vc hvc hwaits').imp howed hqueue

/-- A push pays what is owed by a keyframe that is then queued, or asks for one
    itself; a frame that is not queued pays nothing. -/
theorem Answered.push (hanswered : Answered s owed) (frame : List UInt8) (keyframe : Bool) :
    Answered (s.push_frame frame keyframe) (s.owes owed (.push_frame frame keyframe)) := by
  intro hopen vc hvc hwaits
  rcases push_frame_answered frame keyframe (hanswered hopen vc hvc hwaits) with hask | hqueued | ⟨howed, hrefused⟩
  · left
    have hplain : keyframe = false := by
      have hpush := VideoPassthrough.push_frame_step s.shared frame keyframe
      generalize VideoPassthrough.push_frame s.shared frame keyframe = pushed at hask hpush
      cases hpush with
      | flushed _ _ hplain => exact hplain
      | size => cases hask
      | waiting => cases hask
      | accepted => cases hask
    refine not_owes_of_ask (by rw [hplain]; simp) (.inr ?_)
    simp only [Pipeline.callbacks, hask, if_true, List.mem_singleton]
  · exact .inr hqueued
  · left
    cases keyframe with
    | false => exact not_owes_of_ask (by simp) (.inl howed)
    | true =>
      change (owed && !(VideoPassthrough.push_frame s.shared frame true).result) = true
      rw [howed, hrefused rfl]
      rfl

/-- A reconfiguration leaves the queue, the codec and what is owed alone. -/
theorem Answered.reconfigure (hanswered : Answered s owed) {config : PassthroughConfig} {out : ReconfigureOutcome}
    (hstep : s.step (.reconfigure config out) = some t) : Answered t (s.owes owed (.reconfigure config out)) := by
  obtain ⟨hqueue, -, -, cfg, hvpt⟩ := VideoPassthrough.reconfigure_sizes s.shared s.module config out
  cases Pipeline.step_inv hstep with
  | @reconfigure _ _ shared module hreconfigure =>
    simp only [hreconfigure] at hqueue hvpt
    refine hanswered.keep (fun h => not_owes_of_ask (by simp) (.inl h)) ?_ fun hopen vc hvc hwaits => ?_
    · rintro ⟨q, hq, hkey⟩
      exact ⟨q, hqueue ▸ hq, hkey⟩
    · refine ⟨hopen, vc, hvc, hwaits ▸ (keyed_congr ?_ ?_ rfl rfl).symm⟩
      · rcases hvpt with heq | heq <;> exact congrArg (·.source_epoch) heq
      · rcases hvpt with heq | heq <;> exact congrArg (·.keyed_epoch) heq

/-- A poll leaves the queue alone, and with it what answers the codec. The bridge
    may poll as often as it likes. -/
theorem Answered.poll (hanswered : Answered s owed) (hrep : Represents size s f) (hinv : f.Inv) {buf : pjmedia_frame}
    (hexact : buf.Exact s.module.vpt) (hstep : s.step (.poll buf) = some t) :
    Answered t (s.owes owed (.poll buf)) := by
  obtain ⟨-, hshared, hmodule, hcodec, hopen, -⟩ := hrep.poll hinv hexact hstep
  refine hanswered.keep (fun h => not_owes_of_ask (by simp) (.inl h)) ?_ fun hopen' vc hvc hwaits => ?_
  · rw [KeyQueued, KeyQueued, hshared]
    exact id
  · exact ⟨hopen ▸ hopen', vc, hcodec ▸ hvc, hwaits ▸ (keyed_congr (by rw [hmodule]) (by rw [hmodule]) rfl rfl).symm⟩

/-- A codec that is opened to encode asks for a keyframe, also if it is reopened in
    the same epoch, where it may not have to wait for one. -/
theorem Answered.open (hcb : s.module.vpt.cb.keyframe_request = true) {param : pjmedia_vid_codec_param}
    {out : OpenOutcome} (hdir : param.dir.encoding = true) (hstep : s.step (.open param out) = some t) :
    Answered t (s.owes owed (.open param out)) := by
  cases Pipeline.step_inv hstep with
  | @«open» _ _ vc vc' status cbs hcodec hclosed hopened =>
    intro hopen _ _ _
    left
    refine not_owes_of_ask (by simp) (.inr ?_)
    rcases vc_open_cases s.module.vpt vc param out with ⟨-, _, heq, -⟩ | ⟨-, status', hfailed, heq⟩
    · simp only [Pipeline.callbacks, hcodec, Option.elim_some, heq]
      apply List.mem_append_right
      simp only [hdir, if_true, request_keyframe, hcb, List.mem_singleton]
    · cases hopened.symm.trans heq
      exact absurd (by simpa using hopen) hfailed

/-- A change of the bit rates makes no codec wait. -/
theorem Answered.modify (hanswered : Answered s owed) {avg_bps max_bps : UInt32}
    (hstep : s.step (.modify avg_bps max_bps) = some t) : Answered t (s.owes owed (.modify avg_bps max_bps)) := by
  cases Pipeline.step_inv hstep with
  | @modify _ _ vc hcodec hopen =>
    refine hanswered.keep (fun h => not_owes_of_ask (by simp) (.inl h)) id fun _ vc' hvc' hwaits => ?_
    have hflags : (vc_modify s.module.vpt vc avg_bps max_bps).1.enc_epoch = vc.enc_epoch ∧
        (vc_modify s.module.vpt vc avg_bps max_bps).1.enc_sent_key = vc.enc_sent_key := by
      unfold vc_modify
      split <;> exact ⟨rfl, rfl⟩
    refine ⟨hopen, vc, hcodec, ?_⟩
    cases hvc'
    exact hwaits ▸ (keyed_congr rfl rfl hflags.1 hflags.2).symm

/-- The hard step. The encode may take the keyframe that was to answer the codec:
    then the codec does not wait any more, or has dropped it and asked for another. -/
theorem Answered.encode_begin (hanswered : Answered s owed) (hrep : Represents size s f) (hinv : f.Inv)
    {force_keyframe : Bool} {packetize : Packetizer} {out_size : Nat} {output : Output}
    (hfresh : ∀ h ∈ s.held, s.accepted.length ≤ h + 2 ^ 31)
    (hstep : s.step (.encode_begin force_keyframe packetize out_size output) = some t) :
    Answered t (s.owes owed (.encode_begin force_keyframe packetize out_size output)) := by
  have hcb : s.module.vpt.cb.keyframe_request = true := by
    rw [hrep.cb]
    rfl
  obtain ⟨vc, b, hcodec, hopen, hb, hbegin, hcodec', hvpt', hshared, hqueue⟩ := hrep.begun hinv hfresh hstep
  have howes (h : owed = true) : s.owes owed (.encode_begin force_keyframe packetize out_size output) = true :=
    not_owes_of_ask (by simp) (.inl h)
  -- A queued keyframe is lost only if it is the frame in the bridge.
  have hkept (hplain : (au_frame s.bridge).keyframe = false) (hkey : KeyQueued s) : KeyQueued t := by
    obtain ⟨q, hq, hkey⟩ := hkey
    rcases hqueue with hsame | hfront
    · exact ⟨q, hsame ▸ hq, hkey⟩
    · rw [hfront, List.mem_cons] at hq
      rcases hq with rfl | hq
      · rw [hplain] at hkey
        cases hkey
      · exact ⟨q, hq, hkey⟩
  cases hbegin with
  | refused _ _ hvc hvpt hslot =>
    refine hanswered.keep howes ?_ fun _ vc' hvc' hwaits => ⟨hopen, vc, hcodec, ?_⟩
    · rw [KeyQueued, KeyQueued, hshared, hslot]
      exact id
    · rw [hcodec', hvc] at hvc'
      cases hvc'
      exact hwaits ▸ (keyed_congr (by rw [hvpt', hvpt]) (by rw [hvpt', hvpt]) rfl rfl).symm
  | taken hdr hinput _ _ hsent =>
    intro _ vc' hvc' hwaits
    rw [hcodec'] at hvc'
    cases hvc'
    rw [keyed_of_sent hsent hvpt'] at hwaits
    rcases hsent.cases with ⟨-, hnot, hplain, -⟩ | ⟨-, -, hsent', -⟩ | ⟨hdropped, -⟩
    · have hwaited : s.keyed vc = false := hnot
      rw [hinput.hdr_eq] at hplain
      exact (hanswered hopen vc hcodec hwaited).imp howes (hkept hplain)
    · rw [hsent'] at hwaits
      cases hwaits
    · left
      refine not_owes_of_ask (by simp) (.inr ?_)
      simp only [Pipeline.callbacks, hcodec, Option.elim_some, hb]
      exact vc_encode_begin_asks hcb hb hdropped

/-- A packet that drops the access unit makes the codec wait, and asks. The callback
    is assumed to be installed; without it nobody would be asked. -/
theorem Answered.encode_more (hanswered : Answered s owed) (hcb : s.module.vpt.cb.keyframe_request = true)
    {packetize : Packetizer} {out_size : Nat} {output : Output}
    (hstep : s.step (.encode_more packetize out_size output) = some t) :
    Answered t (s.owes owed (.encode_more packetize out_size output)) := by
  cases Pipeline.step_inv hstep with
  | @encode_more _ _ _ vc hcodec hopen =>
    obtain ⟨-, hepoch, hcases⟩ := vc_encode_more_cases vc s.module.vpt packetize out_size output
    have hasks := vc_encode_more_asks hcb vc packetize out_size output
    have hcallbacks : s.callbacks (.encode_more packetize out_size output) =
        (vc_encode_more vc s.module.vpt packetize out_size output).callbacks := by
      simp only [Pipeline.callbacks, hcodec, Option.elim_some]
    have hsame (hflag : (vc_encode_more vc s.module.vpt packetize out_size output).vc.enc_sent_key = vc.enc_sent_key)
        (hvpt : (vc_encode_more vc s.module.vpt packetize out_size output).vpt = s.module.vpt) :
        Answered (s.encode_more vc packetize out_size output) (s.owes owed (.encode_more packetize out_size output)) := by
      refine hanswered.keep (fun h => not_owes_of_ask (by simp) (.inl h)) id fun _ vc' hvc' hwaits => ?_
      cases hvc'
      refine ⟨hopen, vc, hcodec, hwaits ▸ (keyed_congr ?_ ?_ hepoch hflag).symm⟩
      · exact congrArg (·.source_epoch) hvpt
      · exact congrArg (·.keyed_epoch) hvpt
    rcases hcases with ⟨-, -, hvc, hvpt⟩ | ⟨-, hflag, hvpt⟩ | ⟨hdropped, -⟩
    · exact hsame (congrArg (·.enc_sent_key) hvc) hvpt
    · exact hsame hflag hvpt
    · intro _ _ _ _
      left
      refine not_owes_of_ask (by simp) (.inr ?_)
      rw [hcallbacks]
      exact hasks hdropped

/-- Every call keeps that a codec does not wait in vain. Only where a codec starts
    to wait, or a keyframe leaves the queue, is there something to show. -/
theorem Answered.step (hanswered : Answered s owed) (hrep : Represents size s f) (hinv : f.Inv) {op : PipelineOp}
    (hfresh : Fresh s op) (hopens : ∀ param out, op = .open param out → param.dir.encoding = true)
    (hstep : s.step op = some t) : Answered t (s.owes owed op) := by
  have hcb : s.module.vpt.cb.keyframe_request = true := by
    rw [hrep.cb]
    rfl
  cases op with
  | push_frame frame keyframe =>
    cases hstep
    exact hanswered.push frame keyframe
  | clear =>
    intro _ _ _ _
    exact .inl rfl
  | reconfigure config out => exact hanswered.reconfigure hstep
  | poll buf => exact hanswered.poll hrep hinv hfresh hstep
  | alloc =>
    cases Pipeline.step_inv hstep with
    | alloc hclosed =>
      intro hopen
      exact absurd hopen hclosed
  | «open» param out => exact .open hcb (hopens param out rfl) hstep
  | modify avg_bps max_bps => exact hanswered.modify hstep
  | close =>
    cases Pipeline.step_inv hstep
    intro hopen
    cases hopen
  | encode_begin force_keyframe packetize out_size output => exact hanswered.encode_begin hrep hinv hfresh hstep
  | encode_more packetize out_size output => exact hanswered.encode_more hcb hstep

end Answered

/-- In every run whose codecs are opened to encode, whenever the open codec waits
    for a keyframe, one is queued or the application owes one: it was asked, or
    restarted its source, and no keyframe of its was accepted since. As for the
    order of the frames, the bridge's buffers are exact and at most `2 ^ 31` frames
    are accepted from a frame's push to the encode of its buffer. The application
    need not answer: it may push whatever it likes, clear and reconfigure. -/
theorem waits_answered {config : PassthroughConfig} {module : Module} (hinstalled : Installed config module)
    {s : Asking} (hreach : (asking config module).Reach Encoding s) : Answered s.pipeline s.owed := by
  have hboth : (∃ f, Represents config.max_frame_size s.pipeline f ∧ f.Inv) ∧ Answered s.pipeline s.owed := by
    refine hreach.invariant (P := fun s => (∃ f, Represents config.max_frame_size s.pipeline f ∧ f.Inv) ∧
      Answered s.pipeline s.owed) ⟨⟨{}, hinstalled.represents, .empty⟩, fun hopen => by cases hopen⟩ ?_
    rintro s op t - ⟨hfresh, hopens⟩ hstep ⟨⟨f, hrep, hinv⟩, hanswered⟩
    obtain ⟨hpipe, howed⟩ := Asking.step_eq_some hstep
    refine ⟨(hrep.step hinv hfresh hpipe).1, howed ▸ hanswered.step hrep hinv hfresh ?_ hpipe⟩
    rintro param out rfl
    exact hopens
  exact hboth.2

/-- A codec is opened, a frame that is not a keyframe is pushed, polled and
    encoded, and none goes out. -/
def plain_first : List PipelineOp :=
  [.alloc, .open sendrecv_param mode_1, .push_frame [1] false, .poll (.zero 17), .encode_begin false whole 1400 {}]

theorem plain_first_admitted :
    (asking small_config small_module).Admits Encoding (asking small_config small_module).start plain_first := by
  refine .cons rfl ⟨trivial, trivial⟩ <| .cons rfl ⟨trivial, rfl⟩ <| .cons rfl ⟨trivial, trivial⟩ <|
    .cons rfl ⟨⟨rfl, rfl⟩, trivial⟩ <| .cons rfl ⟨fun h hh => ?_, trivial⟩ trivial
  cases hh
  decide

/-- The codec then waits, and the application owes a keyframe. -/
theorem waits_answered_plain_first :
    ∃ s vc, (asking small_config small_module).exec (asking small_config small_module).start plain_first = some s ∧
      s.pipeline.codec = some vc ∧ s.pipeline.keyed vc = false ∧ (s.owed = true ∨ KeyQueued s.pipeline) :=
  ⟨_, _, rfl, rfl, rfl, waits_answered small_installed (Machine.Reach.exec .start plain_first_admitted rfl) rfl _ rfl
    rfl⟩

end pjsua_rust.sending
