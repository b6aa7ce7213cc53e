import PjsuaRust.Concurrent.System
import PjsuaRust.Passthrough.EncodeBegin

open pjsua_rust.video pjsua_rust.video_passthrough transition gating

namespace pjsua_rust.concurrent

/-- The module state once a codec that may send has called `set_keyed` for a
    keyframe. -/
def keyed_for (vc : vpt_codec) (vpt : vpt_state) (epoch : UInt32) : vpt_state :=
  if vc.enc_key then set_keyed vpt epoch else vpt

/-- Everything one step of one thread can do. -/
inductive SystemStep (s : System) : SystemOp → System → Prop where
  | push_frame {frame : List UInt8} {keyframe : Bool} (pushed : Pushed)
      (hpushed : pushed = VideoPassthrough.push_frame s.shared frame keyframe) :
      SystemStep s (.push_frame frame keyframe) { s with
        shared := pushed.shared
        born := aligned pushed.shared.queue.frames.length
          (if pushed.result then s.born ++ [s.clears] else s.born) }
  | clear :
      SystemStep s .clear { s with
        shared := (VideoPassthrough.clear s.shared s.vpt).1
        vpt := pjrs_vpt_source_restarted s.vpt
        clears := s.clears + 1, born := [], cleared := true }
  | poll (c : Nat) (buf : pjmedia_frame) (strm : vpt_stream) (bridge : pjmedia_frame) :
      SystemStep s (.poll c buf) { s.set c { s.call c with bridge, era := s.born.headD s.clears } with strm }
  | make_call (c : Nat) : SystemStep s (.make_call c) { s with calls := c :: s.calls, cleared := false }
  | opened {c : Nat} {param : pjmedia_vid_codec_param} {out : OpenOutcome} {vc : vpt_codec}
      (hidle : (s.call c).stage = .idle) (hsent : vc.enc_sent_key = false) (hepoch : vc.enc_epoch = 0) :
      SystemStep s (.open c param out) (s.set c { s.call c with vc := some vc })
  | not_opened {c : Nat} {param : pjmedia_vid_codec_param} {out : OpenOutcome} (hidle : (s.call c).stage = .idle) :
      SystemStep s (.open c param out) (s.set c { s.call c with vc := none })
  | not_taken (c : Nat) : SystemStep s (.encode_begin c) s
  | taken {c : Nat} {vc : vpt_codec} (hdr : au_hdr) (hvc : (s.call c).vc = some vc)
      (hidle : (s.call c).stage = .idle) :
      SystemStep s (.encode_begin c) (s.set_codec c (encode_take vc hdr)
        (.taken { input := (s.call c).bridge, hdr, era := (s.call c).era }))
  | consumed {c : Nat} {vc : vpt_codec} {u : Flight} (shared : Shared) (hvc : (s.call c).vc = some vc)
      (htaken : (s.call c).stage = .taken u)
      (hshared : shared = if s.vpt.cb.capture_consumed then capture_consumed s.shared u.hdr.seq else s.shared) :
      SystemStep s (.capture_consumed c) { s.set_codec c vc (.consumed u) with
        shared
        born := aligned shared.queue.frames.length s.born }
  | read {c : Nat} {vc : vpt_codec} {u : Flight} (hvc : (s.call c).vc = some vc)
      (hconsumed : (s.call c).stage = .consumed u) :
      SystemStep s (.read_epochs c)
        (s.set_codec c vc (.read u (read_epochs s.vpt).1 (read_epochs s.vpt).2 s.clears))
  | waits {c : Nat} {vc vc' : vpt_codec} {u : Flight} {epoch : UInt32} {keyed : Bool} {clears out_size : Nat}
      {packetize : Packetizer} {output : Output} (hvc : (s.call c).vc = some vc)
      (hread : (s.call c).stage = .read u epoch keyed clears)
      (hready : encode_ready vc u.input u.hdr epoch keyed = .ok (false, vc')) :
      SystemStep s (.encode_send c packetize out_size output) (s.set_codec c vc' .idle)
  | drops {c : Nat} {vc vc' : vpt_codec} {u : Flight} {epoch : UInt32} {keyed : Bool} {clears out_size : Nat}
      {packetize : Packetizer} {output : Output} (e : Encoded) (hvc : (s.call c).vc = some vc)
      (hread : (s.call c).stage = .read u epoch keyed clears)
      (hready : encode_ready vc u.input u.hdr epoch keyed = .ok (true, vc'))
      (hover : oversized vc' vc'.access_unit = true)
      (he : e = video_passthrough.drop_oversized vc' s.vpt { output with timestamp := u.input.timestamp }) :
      SystemStep s (.encode_send c packetize out_size output) (s.encoded c e.vc .idle e.vpt s.log)
  | refused {c : Nat} {vc vc' : vpt_codec} {u : Flight} {epoch : UInt32} {keyed : Bool} {clears out_size : Nat}
      {packetize : Packetizer} {output : Output} (hvc : (s.call c).vc = some vc)
      (hread : (s.call c).stage = .read u epoch keyed clears)
      (hready : encode_ready vc u.input u.hdr epoch keyed = .ok (true, vc'))
      (hfits : oversized vc' vc'.access_unit = false) (hpacket : packetize vc'.access_unit vc'.enc_pos = none) :
      SystemStep s (.encode_send c packetize out_size output) (s.encoded c vc' .refused (keyed_for vc' s.vpt epoch)
        (s.handed_over c vc u epoch keyed clears :: s.log))
  | sends {c : Nat} {vc vc' : vpt_codec} {u : Flight} {epoch : UInt32} {keyed : Bool} {clears out_size : Nat}
      {packetize : Packetizer} {packet : Packet} {output : Output} (e : Encoded) (hout : out_size ≠ 0)
      (hvc : (s.call c).vc = some vc) (hread : (s.call c).stage = .read u epoch keyed clears)
      (hready : encode_ready vc u.input u.hdr epoch keyed = .ok (true, vc'))
      (hfits : oversized vc' vc'.access_unit = false)
      (hpacket : packetize vc'.access_unit vc'.enc_pos = some packet)
      (he : e = vc_encode_more vc' (keyed_for vc' s.vpt epoch) packetize out_size
        { output with timestamp := u.input.timestamp }) :
      SystemStep s (.encode_send c packetize out_size output) (s.encoded c e.vc .idle e.vpt
        (s.handed_over c vc u epoch keyed clears :: s.log))
  | drop_refused {c : Nat} {vc : vpt_codec} (e : Encoded) (hvc : (s.call c).vc = some vc)
      (hrefused : (s.call c).stage = .refused) (he : e = video_passthrough.drop_oversized vc s.vpt {}) :
      SystemStep s (.drop_oversized c) (s.encoded c e.vc .idle e.vpt s.log)
  | more {c : Nat} {vc : vpt_codec} {out_size : Nat} {packetize : Packetizer} {output : Output}
      (e : Encoded) (hvc : (s.call c).vc = some vc) (hidle : (s.call c).stage = .idle)
      (he : e = vc_encode_more vc s.vpt packetize out_size output) :
      SystemStep s (.encode_more c packetize out_size output) (s.encoded c e.vc .idle e.vpt s.log)

/-- The end of an encoder call: it waits for a keyframe, drops the access unit,
    or hands it to the packetizer, which may refuse it. -/
theorem encode_send_inv {s t : System} {c : Nat} {vc : vpt_codec} {u : Flight} {epoch : UInt32} {keyed : Bool}
    {clears : Nat} {packetize : Packetizer} {out_size : Nat} {output : Output} (hout : out_size ≠ 0)
    (hvc : (s.call c).vc = some vc) (hread : (s.call c).stage = .read u epoch keyed clears)
    (hsend : s.encode_send c vc u epoch keyed clears packetize out_size output = some t) :
    SystemStep s (.encode_send c packetize out_size output) t := by
  unfold System.encode_send at hsend
  split at hsend
  · cases hsend
  · rename_i vc' hready
    cases hsend
    exact .waits hvc hread hready
  · rename_i vc' hready
    by_cases hover : oversized vc' vc'.access_unit = true
    · rw [if_pos hover] at hsend
      cases hsend
      exact .drops _ hvc hread hready hover rfl
    · rw [if_neg hover] at hsend
      have hfits := Bool.eq_false_of_not_eq_true hover
      cases hpacket : packetize vc'.access_unit vc'.enc_pos with
      | none =>
        simp only [hpacket, Option.some.injEq] at hsend
        subst hsend
        exact .refused hvc hread hready hfits hpacket
      | some packet =>
        simp only [hpacket, Option.some.injEq] at hsend
        subst hsend
        exact .sends _ hout hvc hread hready hfits hpacket rfl

/-- The inversion of `System.step`: its branches, with the guard of each. -/
theorem System.step_inv {s t : System} {op : SystemOp} (hstep : s.step op = some t) : SystemStep s op t := by
  cases op with
  | push_frame frame keyframe =>
    cases hstep
    exact .push_frame _ rfl
  | clear =>
    cases hstep
    exact .clear
  | poll c buf =>
    simp only [System.step] at hstep
    split at hstep
    · cases hstep
    · cases hstep
      exact .poll c buf _ _
  | make_call c =>
    cases hstep
    exact .make_call c
  | «open» c param out =>
    simp only [System.step] at hstep
    split at hstep
    · rename_i hidle
      rcases vc_open_cases s.vpt ((s.call c).vc.getD vc_alloc_codec) param out with
        ⟨-, vc, heq, -, -, -, -, -, -, -, hsent, hepoch⟩ | ⟨-, status, hstatus, heq⟩
      · rw [heq] at hstep
        cases hstep
        exact .opened hidle hsent hepoch
      · rw [heq] at hstep
        simp only [if_neg hstatus] at hstep
        cases hstep
        exact .not_opened hidle
    · cases hstep
  | encode_begin c =>
    simp only [System.step] at hstep
    split at hstep
    · rename_i hvc hidle
      split at hstep
      · cases hstep
      · cases hstep
        exact .not_taken c
      · rename_i hdr _
        cases hstep
        exact .taken hdr hvc hidle
    · cases hstep
  | capture_consumed c =>
    simp only [System.step] at hstep
    split at hstep
    · rename_i hvc htaken
      cases hstep
      exact .consumed _ hvc htaken rfl
    · cases hstep
  | read_epochs c =>
    simp only [System.step] at hstep
    split at hstep
    · rename_i hvc hconsumed
      cases hstep
      exact .read hvc hconsumed
    · cases hstep
  | encode_send c packetize out_size output =>
    simp only [System.step] at hstep
    split at hstep
    · rename_i hvc hread
      split at hstep
      · cases hstep
      · rename_i hout
        exact encode_send_inv hout hvc hread hstep
    · cases hstep
  | drop_oversized c =>
    simp only [System.step] at hstep
    split at hstep
    · rename_i hvc hrefused
      cases hstep
      exact .drop_refused _ hvc hrefused rfl
    · cases hstep
  | encode_more c packetize out_size output =>
    simp only [System.step] at hstep
    split at hstep
    · rename_i hvc hidle
      cases hstep
      exact .more _ hvc hidle rfl
    · cases hstep

theorem keyed_for_vpt (vc : vpt_codec) (vpt : vpt_state) (epoch : UInt32) :
    ∃ keyed, keyed_for vc vpt epoch = { vpt with keyed_epoch := keyed } := by
  unfold keyed_for
  split
  · exact ⟨epoch, rfl⟩
  · exact ⟨vpt.keyed_epoch, rfl⟩

/-- Only a keyframe makes its epoch known. -/
theorem keyed_for_keyed_epoch (vc : vpt_codec) (vpt : vpt_state) (epoch : UInt32) :
    (keyed_for vc vpt epoch).keyed_epoch = if vc.enc_key then epoch else vpt.keyed_epoch := by
  unfold keyed_for
  split <;> rfl

/-- Of the module state, a step changes only the epochs: `source_epoch` in a clear,
    `keyed_epoch` when a keyframe goes to the packetizer or an access unit is
    dropped. -/
theorem SystemStep.vpt {s t : System} {op : SystemOp} (hstep : SystemStep s op t) :
    ∃ source keyed, t.vpt = { s.vpt with source_epoch := source, keyed_epoch := keyed } := by
  cases hstep with
  | push_frame | poll | make_call | opened | not_opened | not_taken | taken | consumed | read | waits =>
    exact ⟨s.vpt.source_epoch, s.vpt.keyed_epoch, rfl⟩
  | clear =>
    obtain ⟨epoch, hepoch⟩ := pjrs_vpt_source_restarted_eq s.vpt
    exact ⟨epoch, s.vpt.keyed_epoch, hepoch⟩
  | drops _ _ _ _ _ he | drop_refused _ _ _ he =>
    subst he
    exact ⟨s.vpt.source_epoch, 0, rfl⟩
  | refused =>
    obtain ⟨keyed, hkeyed⟩ := keyed_for_vpt _ s.vpt _
    exact ⟨s.vpt.source_epoch, keyed, hkeyed⟩
  | @sends _ _ vc' _ epoch _ _ _ _ _ _ _ _ _ _ _ _ _ he =>
    obtain ⟨keyed, hkeyed⟩ := keyed_for_vpt vc' s.vpt epoch
    rw [hkeyed] at he
    subst he
    obtain ⟨keyed', hmore⟩ := (vc_encode_more_cases _ _ _ _ _).1.vpt
    exact ⟨s.vpt.source_epoch, keyed', hmore⟩
  | more _ _ _ he =>
    subst he
    obtain ⟨keyed, hmore⟩ := (vc_encode_more_cases _ _ _ _ _).1.vpt
    exact ⟨s.vpt.source_epoch, keyed, hmore⟩

/-- The call whose codec or bridge a step belongs to. -/
def SystemOp.call : SystemOp → Option Nat
  | .push_frame _ _ | .clear | .make_call _ => none
  | .poll c _ | .open c _ _ | .encode_begin c | .capture_consumed c | .read_epochs c | .encode_send c _ _ _
  | .drop_oversized c | .encode_more c _ _ _ => some c

theorem length_aligned {n : Nat} {born : List Nat} (hle : n ≤ born.length) : (aligned n born).length = n := by
  rw [aligned, List.length_drop]
  omega

/-- A push queues at most one frame, behind what it keeps; where it returns false it
    queues none. -/
theorem length_push_frame_le (self : Shared) (frame : List UInt8) (keyframe : Bool) :
    let pushed := VideoPassthrough.push_frame self frame keyframe
    pushed.shared.queue.frames.length ≤ self.queue.frames.length + if pushed.result then 1 else 0 := by
  have hstep := VideoPassthrough.push_frame_step self frame keyframe
  generalize VideoPassthrough.push_frame self frame keyframe = pushed at hstep ⊢
  cases hstep with
  | size | waiting => exact Nat.le_refl _
  | flushed => exact Nat.zero_le _
  | accepted _ _ kept hkept =>
    have hlen := hkept.suffix.length_le
    simp only [Queue.push_back, if_true, List.length_append, List.length_singleton]
    omega

/-- The eras line up with the queue: there is one for each frame. A push may drop
    frames and a codec may take some, both at the front, and the eras follow. -/
theorem SystemStep.born {s t : System} {op : SystemOp} (hstep : SystemStep s op t)
    (hborn : s.born.length = s.shared.queue.frames.length) :
    t.born.length = t.shared.queue.frames.length := by
  cases hstep with
  | push_frame _ hpushed =>
    subst hpushed
    refine length_aligned ((length_push_frame_le s.shared _ _).trans ?_)
    split
    · rw [List.length_append, List.length_singleton, hborn]
    · rw [hborn, Nat.add_zero]
  | clear => rfl
  | consumed _ _ _ hshared =>
    subst hshared
    refine length_aligned ?_
    rw [hborn]
    split
    · exact (Queue.consume_through_suffix _ _).length_le
    · exact Nat.le_refl _
  | poll | make_call | opened | not_opened | not_taken | taken | read | waits | drops | refused | sends
  | drop_refused | more => exact hborn

/-- In every reachable state there is an era for each queued frame, so that the
    bookkeeping of eras beside the queue never runs out of step with it. -/
theorem born_of_reach {config : PassthroughConfig} {vpt : vpt_state} {ok : System → SystemOp → Prop}
    {s : System} (hreach : (system config vpt).Reach ok s) :
    s.born.length = s.shared.queue.frames.length := by
  refine hreach.invariant (P := fun s => s.born.length = s.shared.queue.frames.length) rfl ?_
  exact fun _ _ _ _ _ hstep hborn => (System.step_inv hstep).born hborn

end pjsua_rust.concurrent
