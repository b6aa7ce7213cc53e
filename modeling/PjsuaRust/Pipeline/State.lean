import PjsuaRust.Feed.Chain
import PjsuaRust.Passthrough.Sizes

open pjsua_rust.video pjsua_rust.video_passthrough transition feeds

namespace pjsua_rust.sending

/-- An accepted frame with the place of its push among all pushes. -/
structure Accepted where
  number : Nat
  frame : Queued
deriving DecidableEq, Repr

instance : Coded Accepted where
  number := Accepted.number
  key a := a.frame.keyframe

/-- One sending call on an installed passthrough: the queue, the module, the
    capture device, the buffer the bridge got in the latest poll, and the codec.

    The rest is history. `pushed` counts the pushes and `since_poll` those since
    the latest poll, `accepted` are the frames that were queued, and `held` is
    the place among them of the frame in the bridge. `taken` are the frames the
    codec took since it was opened, as it found them in the buffer, and `log`
    says what became of them and when the queue overflowed, newest first. -/
structure Pipeline where
  shared : Shared
  module : Module
  strm : vpt_stream
  bridge : pjmedia_frame
  codec : Option vpt_codec
  is_open : Bool
  pushed : Nat
  since_poll : Nat
  accepted : List Accepted
  held : Option Nat
  taken : List Queued
  log : List (Sent Accepted)

inductive PipelineOp where
  | push_frame (frame : List UInt8) (keyframe : Bool)
  | clear
  | reconfigure (config : PassthroughConfig) (out : ReconfigureOutcome)
  | poll (buf : pjmedia_frame)
  | alloc
  | open (param : pjmedia_vid_codec_param) (out : OpenOutcome)
  | modify (avg_bps max_bps : UInt32)
  | close
  | encode_begin (force_keyframe : Bool) (packetize : Packetizer) (out_size : Nat) (output : Output)
  | encode_more (packetize : Packetizer) (out_size : Nat) (output : Output)

/-- The frame in a buffer, as the codec reads it. -/
def au_frame (input : pjmedia_frame) : Queued where
  id := input.buf.hdr.seq
  data := input.buf.body.take input.buf.hdr.len.toNat
  keyframe := input.buf.hdr.key

/-- The accepted frame the bridge holds. -/
def Pipeline.held_frame (s : Pipeline) : Option Accepted := s.held.bind fun h => s.accepted[h]?

/-- The number of the frame the bridge holds. -/
def Pipeline.held_number (s : Pipeline) : Nat := s.held_frame.elim 0 Accepted.number

/-- A push gets as far as the check for room, and there is none. -/
def overflows (self : Shared) (frame : List UInt8) (keyframe : Bool) : Bool :=
  !frame.isEmpty && frame.length ≤ self.max_frame_size &&
    (keyframe || !self.queue.need_keyframe) && self.max_queue ≤ self.queue.frames.length

def Pipeline.push_frame (s : Pipeline) (frame : List UInt8) (keyframe : Bool) : Pipeline :=
  let pushed := VideoPassthrough.push_frame s.shared frame keyframe
  { s with
    shared := pushed.shared
    pushed := s.pushed + 1
    since_poll := s.since_poll + 1
    accepted := s.accepted ++ if pushed.result then
        [{ number := s.pushed, frame := { id := s.shared.queue.next_id, data := frame, keyframe } }]
      else []
    log := if overflows s.shared frame keyframe then .overflow s.held_frame :: s.log else s.log }

/-- The bridge polls into a buffer, whatever that held before. -/
def Pipeline.poll (s : Pipeline) (buf : pjmedia_frame) : Option Pipeline :=
  match vd_get_frame s.module.vpt (some s.shared) s.strm buf with
  | .error _ => none
  | .ok (_, strm, bridge) => some { s with
      strm, bridge
      since_poll := 0
      held := if bridge.buf.hdr.len = 0 then none else some (s.accepted.length - s.shared.queue.frames.length) }

/-- The entry for an access unit that was taken. -/
def sent_entry (fate : Fate) (x : Accepted) : List (Sent Accepted) :=
  match fate with
  | .skipped => []
  | .packetized => [.handed x]
  | .dropped => [.dropped]

/-- The encoder is given the buffer of the latest poll. -/
def Pipeline.encode_begin (s : Pipeline) (vc : vpt_codec) (force_keyframe : Bool)
    (packetize : Packetizer) (out_size : Nat) (output : Output) : Option Pipeline :=
  match vc_encode_begin vc s.module.vpt (some s.shared) force_keyframe s.bridge packetize out_size output with
  | .error _ => none
  | .ok b => some { s with
      shared := b.slot.getD s.shared
      module := { s.module with vpt := b.encoded.vpt }
      codec := some b.encoded.vc
      taken := s.taken ++ if b.consumed.isSome then [au_frame s.bridge] else []
      log := sent_entry b.encoded.fate { number := s.held_number, frame := au_frame s.bridge } ++ s.log }

/-- An access unit that is already counted as handed over is counted again only
    if it is dropped. -/
def Pipeline.encode_more (s : Pipeline) (vc : vpt_codec) (packetize : Packetizer) (out_size : Nat)
    (output : Output) : Pipeline :=
  let e := vc_encode_more vc s.module.vpt packetize out_size output
  { s with
    module := { s.module with vpt := e.vpt }
    codec := some e.vc
    log := if e.fate = .dropped then .dropped :: s.log else s.log }

/-- One call. At most one codec is open at a time, and only an open one encodes;
    a call that leaves its buffers has no next state. A codec may be allocated
    whether the factory is registered or not, so a run may go on where PJMEDIA
    finds no codec. -/
def Pipeline.step (s : Pipeline) : PipelineOp → Option Pipeline
  | .push_frame frame keyframe => some (s.push_frame frame keyframe)
  | .clear =>
    let (shared, vpt) := VideoPassthrough.clear s.shared s.module.vpt
    some { s with shared, module := { s.module with vpt } }
  | .reconfigure config out =>
    let (_, shared, module) := VideoPassthrough.reconfigure s.shared s.module config out
    some { s with shared, module }
  | .poll buf => s.poll buf
  | .alloc => if s.is_open then none else some { s with codec := some vc_alloc_codec }
  | .open param out =>
    match s.codec, s.is_open with
    | some vc, false =>
      let (status, vc, _) := vc_open s.module.vpt vc param out
      some { s with codec := some vc, is_open := status = .PJ_SUCCESS, taken := [] }
    | _, _ => none
  | .modify avg_bps max_bps =>
    match s.codec, s.is_open with
    | some vc, true => some { s with codec := some (vc_modify s.module.vpt vc avg_bps max_bps).1 }
    | _, _ => none
  | .close => some { s with is_open := false }
  | .encode_begin force_keyframe packetize out_size output =>
    match s.codec, s.is_open with
    | some vc, true => s.encode_begin vc force_keyframe packetize out_size output
    | _, _ => none
  | .encode_more packetize out_size output =>
    match s.codec, s.is_open with
    | some vc, true => some (s.encode_more vc packetize out_size output)
    | _, _ => none

/-- Everything one call can do. -/
inductive PipelineStep (s : Pipeline) : PipelineOp → Pipeline → Prop where
  | push_frame (frame : List UInt8) (keyframe : Bool) :
      PipelineStep s (.push_frame frame keyframe) (s.push_frame frame keyframe)
  | clear {shared : Shared} {vpt : vpt_state}
      (hclear : VideoPassthrough.clear s.shared s.module.vpt = (shared, vpt)) :
      PipelineStep s .clear { s with shared, module := { s.module with vpt } }
  | reconfigure {config : PassthroughConfig} {out : ReconfigureOutcome} {shared : Shared} {module : Module}
      (hreconfigure : (VideoPassthrough.reconfigure s.shared s.module config out).2 = (shared, module)) :
      PipelineStep s (.reconfigure config out) { s with shared, module }
  | poll {buf : pjmedia_frame} {t : Pipeline} (hpoll : s.poll buf = some t) : PipelineStep s (.poll buf) t
  | alloc (hclosed : ¬ s.is_open = true) : PipelineStep s .alloc { s with codec := some vc_alloc_codec }
  | open {param : pjmedia_vid_codec_param} {out : OpenOutcome} {vc vc' : vpt_codec} {status : pj_status_t}
      {cbs : List Callback} (hcodec : s.codec = some vc) (hclosed : s.is_open = false)
      (hopened : vc_open s.module.vpt vc param out = (status, vc', cbs)) :
      PipelineStep s (.open param out) { s with codec := some vc', is_open := status = .PJ_SUCCESS, taken := [] }
  | modify {avg_bps max_bps : UInt32} {vc : vpt_codec} (hcodec : s.codec = some vc) (hopen : s.is_open = true) :
      PipelineStep s (.modify avg_bps max_bps)
        { s with codec := some (vc_modify s.module.vpt vc avg_bps max_bps).1 }
  | close : PipelineStep s .close { s with is_open := false }
  | encode_begin {force_keyframe : Bool} {packetize : Packetizer} {out_size : Nat} {output : Output}
      {vc : vpt_codec} {t : Pipeline} (hcodec : s.codec = some vc) (hopen : s.is_open = true)
      (hencode : s.encode_begin vc force_keyframe packetize out_size output = some t) :
      PipelineStep s (.encode_begin force_keyframe packetize out_size output) t
  | encode_more {packetize : Packetizer} {out_size : Nat} {output : Output} {vc : vpt_codec}
      (hcodec : s.codec = some vc) (hopen : s.is_open = true) :
      PipelineStep s (.encode_more packetize out_size output) (s.encode_more vc packetize out_size output)

/-- The inversion of `Pipeline.step`: its branches, with the guard of each. -/
theorem Pipeline.step_inv {s t : Pipeline} {op : PipelineOp} (hstep : s.step op = some t) :
    PipelineStep s op t := by
  cases op with
  | push_frame frame keyframe =>
    cases hstep
    exact .push_frame frame keyframe
  | clear =>
    cases hstep
    exact .clear rfl
  | reconfigure config out =>
    cases hstep
    exact .reconfigure rfl
  | poll buf => exact .poll hstep
  | alloc =>
    simp only [Pipeline.step] at hstep
    split at hstep
    · cases hstep
    · rename_i hclosed
      cases hstep
      exact .alloc hclosed
  | «open» param out =>
    simp only [Pipeline.step] at hstep
    split at hstep
    · rename_i hcodec hclosed
      cases hstep
      exact .open hcodec hclosed rfl
    · cases hstep
  | modify avg_bps max_bps =>
    simp only [Pipeline.step] at hstep
    split at hstep
    · rename_i hcodec hopen
      cases hstep
      exact .modify hcodec hopen
    · cases hstep
  | close =>
    cases hstep
    exact .close
  | encode_begin force_keyframe packetize out_size output =>
    simp only [Pipeline.step] at hstep
    split at hstep
    · rename_i hcodec hopen
      exact .encode_begin hcodec hopen hstep
    · cases hstep
  | encode_more packetize out_size output =>
    simp only [Pipeline.step] at hstep
    split at hstep
    · rename_i hcodec hopen
      cases hstep
      exact .encode_more hcodec hopen
    · cases hstep

/-- Only an open codec encodes. What the step does is then what the function does,
    with the copy that the bridge holds at the time. -/
theorem Pipeline.encode_begin_inv {s t : Pipeline} {force_keyframe : Bool} {packetize : Packetizer}
    {out_size : Nat} {output : Output}
    (hstep : s.step (.encode_begin force_keyframe packetize out_size output) = some t) :
    ∃ vc, s.codec = some vc ∧ s.is_open = true ∧
      s.encode_begin vc force_keyframe packetize out_size output = some t := by
  cases Pipeline.step_inv hstep with
  | encode_begin hcodec hopen hencode => exact ⟨_, hcodec, hopen, hencode⟩

/-- The passthrough just installed with a configuration, before the first poll. -/
def pipeline (config : PassthroughConfig) (module : Module) : Machine Pipeline PipelineOp where
  start := {
    shared := .new config
    module
    strm := { ts := 0, ts_inc := 0 }
    bridge := .zero module.vpt.framebytes.toNat
    codec := none
    is_open := false
    pushed := 0
    since_poll := 0
    accepted := []
    held := none
    taken := []
    log := [] }
  step := Pipeline.step

/-- A run on a successful install whose frames have a size that fits 32 bits. -/
structure Installed (config : PassthroughConfig) (module : Module) : Prop where
  install : ∃ p out k p', VideoPassthrough.install p config out = (.ok k, p') ∧ p'.module = module
  size : config.max_frame_size + AU_HDR_SIZE < 2 ^ 32

end pjsua_rust.sending
