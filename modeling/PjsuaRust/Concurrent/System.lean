import PjsuaRust.Gates.Restart
import PjsuaRust.Gates.Start
import PjsuaRust.Pipeline.State

open pjsua_rust.video pjsua_rust.video_passthrough transition gating

namespace pjsua_rust.concurrent

/-- An access unit inside `vc_encode_begin`. `era` counts the clears before it
    was pushed. -/
structure Flight where
  input : pjmedia_frame
  hdr : au_hdr
  era : Nat

/-- Where a thread stands in `vc_encode_begin`: before it, after its checks,
    after `capture_consumed`, after the epochs were read in the given era, or at
    the `drop_oversized` of an access unit the packetizer refused. -/
inductive Stage where
  | idle
  | taken (u : Flight)
  | consumed (u : Flight)
  | read (u : Flight) (epoch : UInt32) (keyed : Bool) (clears : Nat)
  | refused

/-- One sending call: its codec once it is open, and the copy its bridge got in
    its latest poll. -/
structure Call where
  vc : Option vpt_codec
  stage : Stage
  bridge : pjmedia_frame
  era : Nat

/-- The calls on one source, with the history: `born` are the eras of the queued
    frames, `calls` the calls made, and `cleared` tells whether there was a
    clear since the latest of them. -/
structure System where
  shared : Shared
  vpt : vpt_state
  strm : vpt_stream
  call : Nat → Call
  clears : Nat
  born : List Nat
  calls : List Nat
  cleared : Bool
  log : List Passed

inductive SystemOp where
  | push_frame (frame : List UInt8) (keyframe : Bool)
  | clear
  | poll (c : Nat) (buf : pjmedia_frame)
  | make_call (c : Nat)
  | open (c : Nat) (param : pjmedia_vid_codec_param) (out : OpenOutcome)
  | encode_begin (c : Nat)
  | capture_consumed (c : Nat)
  | read_epochs (c : Nat)
  | encode_send (c : Nat) (packetize : Packetizer) (out_size : Nat) (output : Output)
  | drop_oversized (c : Nat)
  | encode_more (c : Nat) (packetize : Packetizer) (out_size : Nat) (output : Output)

/-- The eras of the queue's frames once `n` are left. -/
def aligned (n : Nat) (born : List Nat) : List Nat := born.drop (born.length - n)

def System.set (s : System) (c : Nat) (call : Call) : System :=
  { s with call := Function.update s.call c call }

def System.set_codec (s : System) (c : Nat) (vc : vpt_codec) (stage : Stage) : System :=
  s.set c { s.call c with vc := some vc, stage }

/-- The codec and the module state an encoder call leaves, and the log. -/
def System.encoded (s : System) (c : Nat) (vc : vpt_codec) (stage : Stage) (vpt : vpt_state)
    (log : List Passed) : System :=
  { s.set_codec c vc stage with vpt, log }

/-- An access unit as a gate sees it. -/
def item (vc : vpt_codec) (u : Flight) : Item where
  key := u.hdr.key
  era := u.era
  oversize := oversized vc (u.input.buf.body.take u.hdr.len.toNat)

/-- What the log says of an access unit that goes to the packetizer. A keyframe
    satisfies a wait for one if its codec has sent none in the epoch it read, or
    if that is the epoch of the source and no codec has, so that it ends the wait
    of the codecs to come. If the epoch read is that of the source, it is the wait
    since the latest clear. -/
def System.handed_over (s : System) (c : Nat) (vc : vpt_codec) (u : Flight) (epoch : UInt32) (keyed : Bool)
    (clears : Nat) : Passed where
  gate := c
  read := clears
  item := item vc u
  satisfies :=
    if u.hdr.key &&
        (!sent_key vc epoch keyed || decide (epoch = s.vpt.source_epoch ∧ s.vpt.keyed_epoch ≠ epoch)) then
      some (if epoch = s.vpt.source_epoch then s.clears else clears)
    else none

/-- What follows the read of the epochs, up to the first packet. `set_keyed` is
    one step with the packetizer, which touches nothing that is shared; where
    the packetizer refuses, `drop_oversized` is a step of its own. -/
def System.encode_send (s : System) (c : Nat) (vc : vpt_codec) (u : Flight) (epoch : UInt32) (keyed : Bool)
    (clears : Nat) (packetize : Packetizer) (out_size : Nat) (output : Output) : Option System :=
  match encode_ready vc u.input u.hdr epoch keyed with
  | .error _ => none
  | .ok (false, vc') => some (s.set_codec c vc' .idle)
  | .ok (true, vc') =>
    let output := { output with timestamp := u.input.timestamp }
    if oversized vc' vc'.access_unit then
      let e := video_passthrough.drop_oversized vc' s.vpt output
      some (s.encoded c e.vc .idle e.vpt s.log)
    else
      let vpt := if vc'.enc_key then set_keyed s.vpt epoch else s.vpt
      let log := s.handed_over c vc u epoch keyed clears :: s.log
      match packetize vc'.access_unit vc'.enc_pos with
      | none => some (s.encoded c vc' .refused vpt log)
      | some _ =>
        let e := vc_encode_more vc' vpt packetize out_size output
        some (s.encoded c e.vc .idle e.vpt log)

/-- One step of one thread. A codec is opened while nothing is in it. -/
def System.step (s : System) : SystemOp → Option System
  | .push_frame frame keyframe =>
    let pushed := VideoPassthrough.push_frame s.shared frame keyframe
    some { s with
      shared := pushed.shared
      born := aligned pushed.shared.queue.frames.length
        (if pushed.result then s.born ++ [s.clears] else s.born) }
  | .clear =>
    let (shared, vpt) := VideoPassthrough.clear s.shared s.vpt
    some { s with shared, vpt, clears := s.clears + 1, born := [], cleared := true }
  | .poll c buf =>
    match vd_get_frame s.vpt (some s.shared) s.strm buf with
    | .error _ => none
    | .ok (_, strm, bridge) =>
      some { s.set c { s.call c with bridge, era := s.born.headD s.clears } with strm }
  | .make_call c => some { s with calls := c :: s.calls, cleared := false }
  | .open c param out =>
    match (s.call c).stage with
    | .idle =>
      let (status, vc, _) := vc_open s.vpt ((s.call c).vc.getD vc_alloc_codec) param out
      some (s.set c { s.call c with vc := if status = .PJ_SUCCESS then some vc else none })
    | _ => none
  | .encode_begin c =>
    match (s.call c).vc, (s.call c).stage with
    | some vc, .idle =>
      match encode_input vc (s.call c).bridge with
      | .error _ => none
      | .ok none => some s
      | .ok (some hdr) =>
        some (s.set_codec c (encode_take vc hdr) (.taken { input := (s.call c).bridge, hdr, era := (s.call c).era }))
    | _, _ => none
  | .capture_consumed c =>
    match (s.call c).vc, (s.call c).stage with
    | some vc, .taken u =>
      let shared := if s.vpt.cb.capture_consumed then capture_consumed s.shared u.hdr.seq else s.shared
      some { s.set_codec c vc (.consumed u) with
        shared
        born := aligned shared.queue.frames.length s.born }
    | _, _ => none
  | .read_epochs c =>
    match (s.call c).vc, (s.call c).stage with
    | some vc, .consumed u =>
      some (s.set_codec c vc (.read u (read_epochs s.vpt).1 (read_epochs s.vpt).2 s.clears))
    | _, _ => none
  | .encode_send c packetize out_size output =>
    match (s.call c).vc, (s.call c).stage with
    | some vc, .read u epoch keyed clears =>
      -- With no room for a packet `vc_encode_begin` returned before it took the frame.
      if out_size = 0 then none
      else s.encode_send c vc u epoch keyed clears packetize out_size output
    | _, _ => none
  | .drop_oversized c =>
    match (s.call c).vc, (s.call c).stage with
    | some vc, .refused =>
      let e := video_passthrough.drop_oversized vc s.vpt {}
      some (s.encoded c e.vc .idle e.vpt s.log)
    | _, _ => none
  | .encode_more c packetize out_size output =>
    match (s.call c).vc, (s.call c).stage with
    | some vc, .idle =>
      let e := vc_encode_more vc s.vpt packetize out_size output
      some (s.encoded c e.vc .idle e.vpt s.log)
    | _, _ => none

/-- A passthrough just installed, before any call. -/
def system (config : PassthroughConfig) (vpt : vpt_state) : Machine System SystemOp where
  start := {
    shared := .new config
    vpt
    strm := { ts := 0, ts_inc := 0 }
    call := fun _ => { vc := none, stage := .idle, bridge := .zero vpt.framebytes.toNat, era := 0 }
    clears := 0
    born := []
    calls := []
    cleared := false
    log := [] }
  step := System.step

end pjsua_rust.concurrent
