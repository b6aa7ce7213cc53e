import PjsuaRust.Passthrough.Codec
import PjsuaRust.Passthrough.Reconfigure
import PjsuaRust.Transition.Log
import PjsuaRust.Transition.Machine
import PjsuaRust.Video.Install

open pjsua_rust.video transition

namespace pjsua_rust.video_passthrough

/-- What happens to a codec, as the application could see it. -/
inductive Notice where
  | allocated (c : Nat)
  | callback (c : Nat) (cb : Callback)
  | closed (c : Nat)
deriving DecidableEq, Repr

/-- A call of `vc_open`: its parameters, and what PJMEDIA answered in it. -/
structure OpenAttempt where
  param : pjmedia_vid_codec_param
  out : OpenOutcome
deriving DecidableEq, Repr

/-- The attempt opened a sending stream. -/
def OpenAttempt.sends (a : OpenAttempt) : Prop :=
  a.param.dir.encoding = true ∧ a.out.supported

/-- Any number of codecs over one module. `attempts` keeps the calls of
    `vc_open` on a codec, newest first, `recent` those since it was last closed,
    and `closes` counts the calls of `vc_close`. -/
structure Codecs where
  vpt : vpt_state
  codec : Nat → Option vpt_codec
  attempts : Nat → List OpenAttempt
  recent : Nat → List OpenAttempt
  closes : Nat → Nat
  log : List Notice

inductive CodecOp where
  | alloc (c : Nat)
  | open (c : Nat) (param : pjmedia_vid_codec_param) (out : OpenOutcome)
  | modify (c : Nat) (avg_bps max_bps : UInt32)
  | close (c : Nat)
  | reconfigure (cfg : pjrs_vpt_config)

/-- The log once `cbs` were called for a codec, one after the other. -/
def logged_callbacks (c : Nat) (cbs : List Callback) (log : List Notice) : List Notice :=
  cbs.foldl (fun log cb => .callback c cb :: log) log

/-- One call on a codec. PJMEDIA modifies a codec only while it is open, and
    closes one at most once for each attempt to open it, whatever that returned. -/
def Codecs.step (s : Codecs) : CodecOp → Option Codecs
  | .alloc c =>
    match s.codec c with
    | some _ => none
    | none => some { s with
        codec := Function.update s.codec c (some vc_alloc_codec)
        log := .allocated c :: s.log }
  | .open c param out =>
    match s.codec c with
    | none => none
    | some vc =>
      let (_, vc, cbs) := vc_open s.vpt vc param out
      some { s with
        codec := Function.update s.codec c (some vc)
        attempts := Function.update s.attempts c (⟨param, out⟩ :: s.attempts c)
        recent := Function.update s.recent c (⟨param, out⟩ :: s.recent c)
        log := logged_callbacks c cbs s.log }
  | .modify c avg_bps max_bps =>
    match s.codec c, s.recent c with
    | some vc, a :: _ =>
      if a.out.supported then
        let (vc, cbs) := vc_modify s.vpt vc avg_bps max_bps
        some { s with
          codec := Function.update s.codec c (some vc)
          log := logged_callbacks c cbs s.log }
      else none
    | _, _ => none
  | .close c =>
    match s.codec c with
    | none => none
    | some vc =>
      if s.closes c < (s.attempts c).length then
        some { s with
          recent := Function.update s.recent c []
          closes := Function.update s.closes c (s.closes c + 1)
          log := .closed c :: logged_callbacks c (vc_close s.vpt vc) s.log }
      else none
  | .reconfigure cfg => some { s with vpt := replace_cfg s.vpt cfg }

/-- No codec yet, on a module installed with some configuration. -/
def codecs (cfg : pjrs_vpt_config) : Machine Codecs CodecOp where
  start := {
    vpt := vpt_state.configured cfg install_callbacks
    codec := fun _ => none
    attempts := fun _ => []
    recent := fun _ => []
    closes := fun _ => 0
    log := [] }
  step := Codecs.step

def IsOpen (c : Nat) : Notice → Prop
  | .callback c' (.encoder_open _) => c' = c
  | _ => False

def IsReset (c : Nat) : Notice → Prop
  | .allocated c' => c' = c
  | .closed c' => c' = c
  | _ => False

/-- An `encoder_open` was made for the codec since it was allocated or last
    closed. -/
def OpenNotified (c : Nat) (log : List Notice) : Prop := Since (IsOpen c) (IsReset c) log

/-- Every `encoder_close` in the log was preceded by an `encoder_open` for the
    codec since it was allocated or last closed. -/
def Paired (log : List Notice) : Prop :=
  Logged (fun e past => ∀ c, e = .callback c .encoder_close → OpenNotified c past) log

/-- The condition on a `vc_close`: unless the latest `vc_open` was for receiving
    only, one since the last close opened a sending stream. -/
def CloseAfterOpen (s : Codecs) : CodecOp → Prop
  | .close c => ∀ a ∈ (s.attempts c).head?, a.param.dir.encoding = true → ∃ b ∈ s.recent c, b.sends
  | _ => True

end pjsua_rust.video_passthrough
