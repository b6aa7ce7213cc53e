import PjsuaRust.Exclusion.Order
import PjsuaRust.Passthrough.EncodeBegin
import PjsuaRust.Passthrough.Reconfigure

open exclusion pjsua_rust.video_passthrough transition

namespace pjsua_rust.video

/-- The mutex of the queue, and `vpt.lock`. -/
inductive Mutex where
  | queue
  | vpt
deriving DecidableEq, Repr

/-- One section under a lock. -/
def critical (m : Mutex) : List (Op Mutex) := [.lock m, .unlock m]

/-- A call to the application's handler, if there is one. -/
def handler_ops (slot : Option Shared) : List (Op Mutex) := if slot.isSome then [.callback] else []

/-- `push_frame`, from what it finds in the queue. The lock is given back before
    the handler is called. -/
def push_frame_ops (self : Shared) (frame : List UInt8) (keyframe : Bool) : List (Op Mutex) :=
  if frame.isEmpty || self.max_frame_size < frame.length then []
  else
    critical .queue ++ if (VideoPassthrough.push_frame self frame keyframe).requested then [.callback] else []

def pjrs_vpt_source_restarted_ops (vpt : vpt_state) : List (Op Mutex) :=
  if !vpt.inited then [] else critical .vpt

/-- `clear` holds the queue until the restart is signalled. -/
def clear_ops (vpt : vpt_state) : List (Op Mutex) :=
  .lock .queue :: pjrs_vpt_source_restarted_ops vpt ++ [.unlock .queue]

def queued_ops : List (Op Mutex) := critical .queue

def capture_peek_ops (slot : Option Shared) : List (Op Mutex) := if slot.isSome then critical .queue else []

def capture_consumed_ops (slot : Option Shared) : List (Op Mutex) := if slot.isSome then critical .queue else []

def keyframe_request_ops (slot : Option Shared) : List (Op Mutex) := handler_ops slot

def encoder_open_ops (slot : Option Shared) : List (Op Mutex) := handler_ops slot

def cur_cfg_ops : List (Op Mutex) := critical .vpt

def request_keyframe_ops (vpt : vpt_state) (slot : Option Shared) : List (Op Mutex) :=
  if vpt.cb.keyframe_request then keyframe_request_ops slot else []

/-- `vc_default_attr`, if its assertions on the arguments hold. -/
def vc_default_attr_ops (valid : Bool) : List (Op Mutex) := if !valid then [] else cur_cfg_ops

/-- `vc_enum_info`, likewise. -/
def vc_enum_info_ops (valid : Bool) : List (Op Mutex) := if !valid then [] else cur_cfg_ops

def DEV_COUNT : Nat := 2

def vd_factory_get_dev_info_ops (index : Nat) : List (Op Mutex) :=
  if DEV_COUNT ≤ index then [] else critical .vpt

/-- `pjrs_vpt_reconfigure`. The codec manager may enumerate the factory's codecs,
    any number of times, when it is registered again. -/
def pjrs_vpt_reconfigure_ops (m : Module) (cfg : pjrs_vpt_config) (out : ReconfigureOutcome) (enumerated : Nat) :
    List (Op Mutex) :=
  if !m.vpt.inited then []
  else if !cfg_valid cfg then []
  else if cfg.max_frame_size ≠ m.vpt.cfg.max_frame_size ∨ cfg.pt ≠ m.vpt.cfg.pt then []
  else if !out.mgr then []
  else if out.unregister_status m ≠ .PJ_SUCCESS then []
  else critical .vpt ++ (List.replicate enumerated (vc_enum_info_ops true)).flatten

/-- `notify_open` reads the configuration before it calls the handler. -/
def notify_open_ops (vpt : vpt_state) (slot : Option Shared) (prm : pjmedia_vid_codec_param) : List (Op Mutex) :=
  if !vpt.cb.encoder_open || !prm.dir.encoding then [] else cur_cfg_ops ++ encoder_open_ops slot

/-- `vc_open`, with what `SHARED` holds at each of its two callbacks. -/
def vc_open_ops (vpt : vpt_state) (opened requested : Option Shared) (param : pjmedia_vid_codec_param)
    (out : OpenOutcome) : List (Op Mutex) :=
  if out.supported then
    notify_open_ops vpt opened param ++ if param.dir.encoding then request_keyframe_ops vpt requested else []
  else []

def set_keyed_ops : List (Op Mutex) := critical .vpt

def drop_oversized_ops (vpt : vpt_state) (slot : Option Shared) : List (Op Mutex) :=
  set_keyed_ops ++ request_keyframe_ops vpt slot

def vc_encode_more_ops (vc : vpt_codec) (vpt : vpt_state) (dropped : Option Shared) (packetize : Packetizer)
    (out_size : Nat) : List (Op Mutex) :=
  if out_size = 0 then []
  else if vc.enc_len ≤ vc.enc_pos then []
  else
    match packetize vc.access_unit vc.enc_pos with
    | none => drop_oversized_ops vpt dropped
    | some _ => []

/-- What one `vc_encode_begin` finds each time it looks at shared state, which
    other threads may change in between. -/
structure EncodeFinds where
  forced : Option Shared
  consumed : Option Shared
  epoch : UInt32
  keyed : Bool
  dropped : Option Shared

/-- The rest of `vc_encode_begin` once the epochs are read. -/
def encode_send_ops (vc : vpt_codec) (vpt : vpt_state) (dropped : Option Shared) (input : pjmedia_frame)
    (hdr : au_hdr) (epoch : UInt32) (keyed : Bool) (packetize : Packetizer) (out_size : Nat) : List (Op Mutex) :=
  match encode_ready vc input hdr epoch keyed with
  | .ok (true, vc) =>
    if oversized vc vc.access_unit then drop_oversized_ops vpt dropped
    else (if vc.enc_key then set_keyed_ops else []) ++ vc_encode_more_ops vc vpt dropped packetize out_size
  | _ => []

def vc_encode_begin_ops (vc : vpt_codec) (vpt : vpt_state) (finds : EncodeFinds) (force_keyframe : Bool)
    (input : pjmedia_frame) (packetize : Packetizer) (out_size : Nat) : List (Op Mutex) :=
  if out_size = 0 then []
  else
    (if force_keyframe then request_keyframe_ops vpt finds.forced else []) ++
      match encode_input vc input with
      | .ok (some hdr) =>
        (if vpt.cb.capture_consumed then capture_consumed_ops finds.consumed else []) ++
          (critical .vpt ++
            encode_send_ops (encode_take vc hdr) vpt finds.dropped input hdr finds.epoch finds.keyed packetize out_size)
      | _ => []

/-- The entries of the video path, each with the data it finds. -/
inductive Call where
  | push_frame (self : Shared) (frame : List UInt8) (keyframe : Bool)
  | clear (vpt : vpt_state)
  | queued
  | reconfigure (m : Module) (cfg : pjrs_vpt_config) (out : ReconfigureOutcome) (enumerated : Nat)
  | capture_peek (slot : Option Shared)
  | capture_consumed (slot : Option Shared)
  | vc_open (vpt : vpt_state) (opened requested : Option Shared) (param : pjmedia_vid_codec_param)
      (out : OpenOutcome)
  | vc_encode_begin (vc : vpt_codec) (vpt : vpt_state) (finds : EncodeFinds) (force_keyframe : Bool)
      (input : pjmedia_frame) (packetize : Packetizer) (out_size : Nat)
  | vc_encode_more (vc : vpt_codec) (vpt : vpt_state) (dropped : Option Shared) (packetize : Packetizer)
      (out_size : Nat)
  | vc_default_attr (valid : Bool)
  | vc_enum_info (valid : Bool)
  | vd_factory_get_dev_info (index : Nat)

def Call.ops : Call → List (Op Mutex)
  | .push_frame self frame keyframe => push_frame_ops self frame keyframe
  | .clear vpt => clear_ops vpt
  | .queued => queued_ops
  | .reconfigure m cfg out enumerated => pjrs_vpt_reconfigure_ops m cfg out enumerated
  | .capture_peek slot => capture_peek_ops slot
  | .capture_consumed slot => capture_consumed_ops slot
  | .vc_open vpt opened requested param out => vc_open_ops vpt opened requested param out
  | .vc_encode_begin vc vpt finds force_keyframe input packetize out_size =>
    vc_encode_begin_ops vc vpt finds force_keyframe input packetize out_size
  | .vc_encode_more vc vpt dropped packetize out_size => vc_encode_more_ops vc vpt dropped packetize out_size
  | .vc_default_attr valid => vc_default_attr_ops valid
  | .vc_enum_info valid => vc_enum_info_ops valid
  | .vd_factory_get_dev_info index => vd_factory_get_dev_info_ops index

/-- What a handler may call of it. -/
def Call.reenters : Call → Bool
  | .push_frame .. => true
  | .clear _ => true
  | .queued => true
  | _ => false

/-- The order in which the two locks are taken. -/
def Mutex.rank : Mutex → Nat
  | .queue => 0
  | .vpt => 1

/-- Nothing of the module changes in a reconfiguration that takes no lock. So the
    list of locks leaves no write to the module out. -/
theorem reconfigure_vpt_of_unlocked {m : Module} {cfg : pjrs_vpt_config} {out : ReconfigureOutcome} {enumerated : Nat}
    (hops : Op.lock Mutex.vpt ∉ pjrs_vpt_reconfigure_ops m cfg out enumerated) :
    (pjrs_vpt_reconfigure m cfg out).2.vpt = m.vpt := by
  unfold pjrs_vpt_reconfigure_ops at hops
  unfold pjrs_vpt_reconfigure
  split
  · rfl
  split
  · rfl
  split
  · rfl
  split
  · rfl
  split
  · rfl
  · rename_i hinited hvalid hsizes hmgr hunregister
    rw [if_neg hinited, if_neg hvalid, if_neg hsizes, if_neg hmgr, if_neg hunregister] at hops
    exact absurd (List.mem_append_left _ List.mem_cons_self) hops

theorem count_request_keyframe (vpt : vpt_state) (shared : Shared) :
    (request_keyframe_ops vpt (some shared)).count .callback = (request_keyframe vpt).length := by
  unfold request_keyframe_ops request_keyframe
  split <;> rfl

/-- An open calls the handler as often as its lock list says, -/
theorem count_notify_open (vpt : vpt_state) (shared : Shared) (prm : pjmedia_vid_codec_param) :
    (notify_open_ops vpt (some shared) prm).count .callback = (notify_open vpt prm).length := by
  unfold notify_open_ops notify_open
  split <;> rfl

/-- The callbacks an open makes are those of its steps. So the lists of lock
    operations leave out no call of the handler. -/
theorem count_vc_open (vpt : vpt_state) (vc : vpt_codec) (opened requested : Shared)
    (param : pjmedia_vid_codec_param) (out : OpenOutcome) :
    (vc_open_ops vpt (some opened) (some requested) param out).count .callback =
      (vc_open vpt vc param out).2.2.length := by
  rw [vc_open_ops]
  rcases vc_open_cases vpt vc param out with ⟨hsupported, vc', hopen, -⟩ | ⟨hsupported, status, -, hopen⟩
  · rw [if_pos hsupported, hopen, List.count_append, List.length_append, count_notify_open]
    split
    · rw [count_request_keyframe]
    · rfl
  · rw [if_neg hsupported, hopen]
    rfl

/-- so does the drop of an access unit, -/
theorem count_drop_oversized (vc : vpt_codec) {vpt vpt' : vpt_state} (hcb : vpt'.cb = vpt.cb) (shared : Shared)
    (output : Output) :
    (drop_oversized_ops vpt (some shared)).count .callback = (drop_oversized vc vpt' output).callbacks.length := by
  rw [drop_oversized_ops, List.count_append, count_request_keyframe, drop_oversized, request_keyframe,
    request_keyframe, hcb]
  exact Nat.zero_add _

/-- a further packet, -/
theorem count_vc_encode_more (vc : vpt_codec) {vpt vpt' : vpt_state} (hcb : vpt'.cb = vpt.cb) (shared : Shared)
    (packetize : Packetizer) (out_size : Nat) (output : Output) :
    (vc_encode_more_ops vc vpt (some shared) packetize out_size).count .callback =
      (vc_encode_more vc vpt' packetize out_size output).callbacks.length := by
  unfold vc_encode_more_ops vc_encode_more
  split
  · rfl
  split
  · rfl
  · cases packetize vc.access_unit vc.enc_pos with
    | none => exact count_drop_oversized vc hcb shared output
    | some packet =>
      dsimp only
      split <;> rfl

/-- and the first one. -/
theorem count_encode_send {vc : vpt_codec} {vpt : vpt_state} (shared : Shared) {input : pjmedia_frame} {hdr : au_hdr}
    {epoch : UInt32} {keyed : Bool} {packetize : Packetizer} {out_size : Nat} {output : Output} {e : Encoded}
    (hsend : encode_send vc vpt input hdr epoch keyed packetize out_size output = .ok e) :
    (encode_send_ops vc vpt (some shared) input hdr epoch keyed packetize out_size).count .callback = e.callbacks.length := by
  unfold encode_send at hsend
  unfold encode_send_ops
  cases hready : encode_ready vc input hdr epoch keyed with
  | error fault =>
    rw [hready] at hsend
    cases hsend
  | ok r =>
    obtain ⟨send, vc'⟩ := r
    simp only [hready, bind, Except.bind, pure, Except.pure] at hsend
    cases send with
    | false =>
      cases hsend
      rfl
    | true =>
      dsimp only at hsend ⊢
      by_cases hover : oversized vc' vc'.access_unit = true
      · rw [if_pos hover] at hsend ⊢
        cases hsend
        exact count_drop_oversized _ rfl shared _
      · rw [if_neg hover] at hsend ⊢
        cases hsend
        rw [List.count_append]
        split
        · rw [count_vc_encode_more _ (set_keyed_cb vpt epoch)]
          exact Nat.zero_add _
        · rw [count_vc_encode_more _ rfl]
          exact Nat.zero_add _

/-- What a call that finds the state unchanged reads. -/
def EncodeFinds.of (vpt : vpt_state) (shared : Shared) : EncodeFinds where
  forced := some shared
  consumed := some shared
  epoch := (read_epochs vpt).1
  keyed := (read_epochs vpt).2
  dropped := some shared

/-- The callbacks an encoding makes are those of its steps, in each of its branches:
    the request of a keyframe that was forced, and the one after a drop. -/
theorem count_vc_encode_begin {vc : vpt_codec} {vpt : vpt_state} {shared : Shared} {force_keyframe : Bool}
    {input : pjmedia_frame} {packetize : Packetizer} {out_size : Nat} {output : Output} {b : Begun}
    (hbegun : vc_encode_begin vc vpt (some shared) force_keyframe input packetize out_size output = .ok b) :
    (vc_encode_begin_ops vc vpt (.of vpt shared) force_keyframe input packetize out_size).count .callback =
      b.encoded.callbacks.length := by
  have hforced : (if force_keyframe then request_keyframe_ops vpt (some shared) else []).count .callback =
      (if force_keyframe then request_keyframe vpt else []).length := by
    split
    · exact count_request_keyframe vpt shared
    · rfl
  unfold vc_encode_begin at hbegun
  by_cases hout : out_size = 0
  · rw [if_pos hout] at hbegun
    cases hbegun
    rw [vc_encode_begin_ops, if_pos hout]
    rfl
  rw [if_neg hout] at hbegun
  rw [vc_encode_begin_ops, if_neg hout, List.count_append, EncodeFinds.of, hforced]
  cases hinput : encode_input vc input with
  | error fault =>
    rw [hinput] at hbegun
    cases hbegun
  | ok r =>
    simp only [hinput, bind, Except.bind, pure, Except.pure] at hbegun
    cases r with
    | none =>
      cases hbegun
      rw [List.length_append]
      rfl
    | some hdr =>
      dsimp only at hbegun ⊢
      cases hsend : encode_send (encode_take vc hdr) vpt input hdr (read_epochs vpt).1 (read_epochs vpt).2 packetize
          out_size output with
      | error fault =>
        rw [hsend] at hbegun
        cases hbegun
      | ok e =>
        rw [hsend] at hbegun
        cases hbegun
        have hconsumed : (if vpt.cb.capture_consumed then capture_consumed_ops (some shared) else []).count .callback
            = 0 := by
          split <;> rfl
        rw [List.length_append, List.count_append, List.count_append, count_encode_send shared hsend, hconsumed,
          show (critical .vpt).count .callback = 0 from rfl, Nat.zero_add, Nat.zero_add]

/-- A section under one lock that calls nothing keeps to the order. -/
theorem ordered_critical (m : Mutex) : Ordered Mutex.rank [] (critical m) := by
  simp [critical, Ordered]

theorem ordered_nil : Ordered Mutex.rank [] [] := rfl

theorem ordered_callback : Ordered Mutex.rank [] [.callback] := ⟨rfl, rfl⟩

theorem ordered_handler (slot : Option Shared) : Ordered Mutex.rank [] (handler_ops slot) :=
  ordered_ite ordered_callback ordered_nil

/-- The queue is unlocked before the handler is called, in every branch of a push. -/
theorem ordered_push_frame (self : Shared) (frame : List UInt8) (keyframe : Bool) :
    Ordered Mutex.rank [] (push_frame_ops self frame keyframe) := by
  apply ordered_ite ordered_nil
  apply (ordered_critical .queue).append
  exact ordered_ite ordered_callback ordered_nil

/-- The one place where a lock is taken under another. -/
theorem ordered_clear (vpt : vpt_state) : Ordered Mutex.rank [] (clear_ops vpt) := by
  rw [clear_ops, pjrs_vpt_source_restarted_ops]
  split
  · exact ordered_critical .queue
  · simp [critical, Ordered, Mutex.rank]

theorem ordered_request_keyframe (vpt : vpt_state) (slot : Option Shared) :
    Ordered Mutex.rank [] (request_keyframe_ops vpt slot) :=
  ordered_ite (ordered_handler slot) ordered_nil

/-- A reconfiguration takes `vpt.lock` for itself, and again for each codec that the
    codec manager enumerates, but never one inside another. -/
theorem ordered_reconfigure (m : Module) (cfg : pjrs_vpt_config) (out : ReconfigureOutcome) (enumerated : Nat) :
    Ordered Mutex.rank [] (pjrs_vpt_reconfigure_ops m cfg out enumerated) := by
  iterate 5 apply ordered_ite ordered_nil
  apply (ordered_critical .vpt).append
  apply ordered_flatten
  intro code hcode
  rw [List.eq_of_mem_replicate hcode]
  exact ordered_critical .vpt

/-- An open keeps to the order, whichever passthrough its callbacks find installed. -/
theorem ordered_vc_open (vpt : vpt_state) (opened requested : Option Shared) (param : pjmedia_vid_codec_param)
    (out : OpenOutcome) : Ordered Mutex.rank [] (vc_open_ops vpt opened requested param out) := by
  apply ordered_ite _ ordered_nil
  apply Ordered.append
  · apply ordered_ite ordered_nil
    exact (ordered_critical .vpt).append (ordered_handler opened)
  · exact ordered_ite (ordered_request_keyframe vpt requested) ordered_nil

theorem ordered_drop_oversized (vpt : vpt_state) (slot : Option Shared) :
    Ordered Mutex.rank [] (drop_oversized_ops vpt slot) :=
  (ordered_critical .vpt).append (ordered_request_keyframe vpt slot)

theorem ordered_vc_encode_more (vc : vpt_codec) (vpt : vpt_state) (dropped : Option Shared)
    (packetize : Packetizer) (out_size : Nat) :
    Ordered Mutex.rank [] (vc_encode_more_ops vc vpt dropped packetize out_size) := by
  apply ordered_ite ordered_nil
  apply ordered_ite ordered_nil
  split
  · exact ordered_drop_oversized vpt dropped
  · exact ordered_nil

theorem ordered_encode_send (vc : vpt_codec) (vpt : vpt_state) (dropped : Option Shared) (input : pjmedia_frame)
    (hdr : au_hdr) (epoch : UInt32) (keyed : Bool) (packetize : Packetizer) (out_size : Nat) :
    Ordered Mutex.rank [] (encode_send_ops vc vpt dropped input hdr epoch keyed packetize out_size) := by
  rw [encode_send_ops]
  split
  · apply ordered_ite (ordered_drop_oversized vpt dropped)
    apply Ordered.append
    · exact ordered_ite (ordered_critical .vpt) ordered_nil
    · exact ordered_vc_encode_more _ vpt dropped packetize out_size
  · exact ordered_nil

theorem ordered_capture_consumed (slot : Option Shared) : Ordered Mutex.rank [] (capture_consumed_ops slot) :=
  ordered_ite (ordered_critical .queue) ordered_nil

/-- So does an encode, whichever one its callbacks find at each point. No branch of
    it takes the locks the other way round. -/
theorem ordered_vc_encode_begin (vc : vpt_codec) (vpt : vpt_state) (finds : EncodeFinds) (force_keyframe : Bool)
    (input : pjmedia_frame) (packetize : Packetizer) (out_size : Nat) :
    Ordered Mutex.rank [] (vc_encode_begin_ops vc vpt finds force_keyframe input packetize out_size) := by
  apply ordered_ite ordered_nil
  apply Ordered.append
  · exact ordered_ite (ordered_request_keyframe vpt finds.forced) ordered_nil
  · split
    · apply Ordered.append
      · exact ordered_ite (ordered_capture_consumed finds.consumed) ordered_nil
      · exact (ordered_critical .vpt).append (ordered_encode_send _ vpt _ input _ _ _ packetize out_size)
    · exact ordered_nil

/-- Every entry takes the queue before `vpt.lock`, and holds neither when it calls
    the handler or returns. -/
theorem Call.ordered (c : Call) : Ordered Mutex.rank [] c.ops := by
  cases c with
  | push_frame self frame keyframe => exact ordered_push_frame self frame keyframe
  | clear vpt => exact ordered_clear vpt
  | queued => exact ordered_critical .queue
  | reconfigure m cfg out enumerated => exact ordered_reconfigure m cfg out enumerated
  | vc_open vpt opened requested param out => exact ordered_vc_open vpt opened requested param out
  | vc_encode_begin vc vpt finds force_keyframe input packetize out_size =>
    exact ordered_vc_encode_begin vc vpt finds force_keyframe input packetize out_size
  | vc_encode_more vc vpt dropped packetize out_size =>
    exact ordered_vc_encode_more vc vpt dropped packetize out_size
  | capture_peek slot => exact ordered_ite (ordered_critical .queue) ordered_nil
  | capture_consumed slot => exact ordered_capture_consumed slot
  | vc_default_attr valid => exact ordered_ite ordered_nil (ordered_critical .vpt)
  | vc_enum_info valid => exact ordered_ite ordered_nil (ordered_critical .vpt)
  | vd_factory_get_dev_info index => exact ordered_ite ordered_nil (ordered_critical .vpt)

theorem Mutex.rank_lt (m : Mutex) : m.rank < 2 := by
  cases m <;> decide

/-- No deadlock on the video path: no thread takes a lock it holds, no threads wait
    for each other in a cycle, the queue is never taken under `vpt.lock`, the
    handler is never called under a lock, and behind every lock that a thread waits
    for there is a thread that can go on. The number of threads, the calls they
    make, also from within the handler, and the order of their steps are arbitrary. -/
theorem video_path_no_deadlock {T : Type} [DecidableEq T] {ok : Threads T Mutex → Action T Call → Prop}
    {s : Threads T Mutex} (hreach : Machine.Reach (threads Call.ops Call.reenters) ok s) :
    (∀ t m, s.next t = some (.lock m) → s.owner m ≠ some t) ∧
    (∀ t, ¬Relation.TransGen s.Waits t t) ∧
    (∀ t, s.owner .vpt = some t → s.next t ≠ some (.lock .queue)) ∧
    (∀ t, s.next t = some .callback → ∀ m, s.owner m ≠ some t) ∧
    ∀ t u, s.Waits t u → ∃ v, Relation.ReflTransGen s.Waits u v ∧ ∃ s', s.run v = some s' := by
  have hs := disciplined_of_reach Call.ordered hreach
  refine ⟨fun t m hnext => hs.not_self hnext, hs.no_cycle, ?_, fun t hnext => hs.not_owner_of_callback hnext, ?_⟩
  · intro t howner hnext
    have hlt := hs.rank_lt hnext howner
    simp [Mutex.rank] at hlt
  · rintro t u ⟨m, -, howner⟩
    exact hs.exists_run Mutex.rank_lt howner

/-- In a `clear`, thread 0 takes `vpt.lock` under the queue while thread 1 waits
    for the queue. -/
theorem video_path_no_deadlock_clear :
    ∃ s : Threads Nat Mutex, Machine.Reach (threads Call.ops Call.reenters) (fun _ _ => True) s ∧
      s.owner .queue = some 0 ∧ s.next 0 = some (.lock .vpt) ∧ s.Waits 1 0 ∧
      ∃ v, Relation.ReflTransGen s.Waits 0 v ∧ ∃ s', s.run v = some s' := by
  have hstart : Machine.Reach (threads Call.ops Call.reenters) (fun (_ : Threads Nat Mutex) _ => True) _ := .start
  have hcall := hstart.step (a := .call 0 (.clear { vpt_state.zero with inited := true })) trivial rfl
  have hqueue := hcall.step (a := .run 0) trivial rfl
  have hreach := hqueue.step (a := .call 1 .queued) trivial rfl
  exact ⟨_, hreach, rfl, rfl, ⟨.queue, rfl, rfl⟩,
    (video_path_no_deadlock hreach).2.2.2.2 1 0 ⟨.queue, rfl, rfl⟩⟩

end pjsua_rust.video
