import PjsuaRust.Concurrent.Steps

open pjsua_rust.video pjsua_rust.video_passthrough transition gating

namespace pjsua_rust.concurrent

/-- How far an access unit has got in the gate its codec is. -/
def Stage.phase (vc : vpt_codec) : Stage → Phase UInt32
  | .idle => .idle
  | .taken u => .holding (item vc u)
  | .consumed u => .holding (item vc u)
  | .read u epoch keyed clears => .checked (item vc u) epoch keyed clears
  | .refused => .refused

def Call.gate (call : Call) : Gate UInt32 :=
  match call.vc with
  | none => { epoch := 0, sent := false, phase := .idle }
  | some vc => { epoch := vc.enc_epoch, sent := vc.enc_sent_key, phase := call.stage.phase vc }

/-- The gates that the codecs are: of a codec only `enc_epoch`, `enc_sent_key`
    and what is in flight counts. -/
def System.gates (s : System) : Gates UInt32 where
  source := s.vpt.source_epoch
  keyed := s.vpt.keyed_epoch
  era := s.clears
  gate c := (s.call c).gate
  log := s.log

/-- The moves that no condition is about. -/
def Inert : Move UInt32 → Prop
  | .restart _ => False
  | .check _ => False
  | .pass _ => False
  | .refuse _ => False
  | _ => True

/-- A step of a thread is a move of a gate, or none. -/
inductive Simulates (s t : System) : SystemOp → Prop where
  | same {op : SystemOp} (heq : t.gates = s.gates) : Simulates s t op
  | restart (hmove : s.gates.step 0 (.restart (pjrs_vpt_source_restarted s.vpt).source_epoch) = some t.gates) :
      Simulates s t .clear
  | check (c : Nat) (hmove : s.gates.step 0 (.check c) = some t.gates) : Simulates s t (.read_epochs c)
  | through {c : Nat} {packetize : Packetizer} {out_size : Nat} {output : Output} (m : Move UInt32)
      (hthrough : m = .pass c ∨ m = .refuse c) (hmove : s.gates.step 0 m = some t.gates) :
      Simulates s t (.encode_send c packetize out_size output)
  | inert {op : SystemOp} (m : Move UInt32) (hinert : Inert m) (hmove : s.gates.step 0 m = some t.gates) :
      Simulates s t op

/-- What a codec sees of an access unit depends on the mode and the MTU it was
    opened with. -/
theorem item_congr {vc vc' : vpt_codec} (hprm : vc'.prm = vc.prm)
    (hmode : vc'.enc_single_nal = vc.enc_single_nal) (u : Flight) : item vc' u = item vc u := by
  simp only [item, oversized, hprm, hmode]

theorem gates_set (s : System) (c : Nat) (call : Call) :
    (s.set c call).gates = s.gates.set c call.gate := by
  have hgate := Function.comp_update Call.gate s.call c call
  simp only [System.gates, System.set, Gates.set, Gates.mk.injEq, true_and, and_true]
  exact hgate

theorem gates_set_codec (s : System) (c : Nat) (vc : vpt_codec) (stage : Stage) :
    (s.set_codec c vc stage).gates =
      s.gates.set c { epoch := vc.enc_epoch, sent := vc.enc_sent_key, phase := stage.phase vc } :=
  gates_set s c _

/-- The gate of a codec, from its fields and from where it is in `vc_encode_begin`. -/
theorem gate_eq {s : System} {c : Nat} {vc : vpt_codec} {stage : Stage} (hvc : (s.call c).vc = some vc)
    (hstage : (s.call c).stage = stage) :
    s.gates.gate c = { epoch := vc.enc_epoch, sent := vc.enc_sent_key, phase := stage.phase vc } := by
  subst hstage
  simp only [System.gates, Call.gate, hvc]

/-- A gate has read the epochs where its thread has: the thread is between the
    locked read and the call of the packetizer, and carries what it read. -/
theorem checked_inv {s : System} {c : Nat} {x : Item} {epoch : UInt32} {keyed : Bool} {era : Nat}
    (hphase : (s.gates.gate c).phase = .checked x epoch keyed era) :
    ∃ vc u, (s.call c).vc = some vc ∧ (s.call c).stage = .read u epoch keyed era ∧ x = item vc u := by
  simp only [System.gates, Call.gate] at hphase
  cases hvc : (s.call c).vc with
  | none =>
    rw [hvc] at hphase
    cases hphase
  | some vc =>
    rw [hvc] at hphase
    cases hstage : (s.call c).stage with
    | read u epoch' keyed' clears =>
      rw [hstage] at hphase
      cases hphase
      exact ⟨vc, u, rfl, rfl, rfl⟩
    | idle | taken | consumed | refused =>
      rw [hstage] at hphase
      cases hphase

/-- A call that changes neither its codec nor its stage is the same gate. -/
theorem gates_set_same (s : System) (c : Nat) {call : Call} (hgate : call.gate = (s.call c).gate) :
    (s.set c call).gates = s.gates := by
  rw [gates_set, hgate]
  simp only [Gates.set, System.gates, Gates.mk.injEq, true_and, and_true]
  exact Function.update_eq_self c fun c => (s.call c).gate

/-- Where the codec and its module state are all that differs, the gate and the
    epoch of the keyframe are. -/
theorem gates_encoded (s : System) (c : Nat) (vc : vpt_codec) (stage : Stage) (vpt : vpt_state)
    (hvpt : ∃ epoch, vpt = { s.vpt with keyed_epoch := epoch }) (log : List Passed) :
    (s.encoded c vc stage vpt log).gates =
      { s.gates.set c { epoch := vc.enc_epoch, sent := vc.enc_sent_key, phase := stage.phase vc } with
        keyed := vpt.keyed_epoch, log } := by
  have hgates := congrArg Gates.gate (gates_set_codec s c vc stage)
  obtain ⟨epoch, rfl⟩ := hvpt
  simp only [System.gates, System.encoded] at hgates ⊢
  rw [hgates]
  rfl

/-- Whether a gate is open in an epoch is what the code computes as `sent_key`. -/
theorem sentIn_eq_sent_key (vc : vpt_codec) (phase : Phase UInt32) (epoch : UInt32) (keyed : Bool) :
    Gate.sentIn { epoch := vc.enc_epoch, sent := vc.enc_sent_key, phase } epoch keyed =
      sent_key vc epoch keyed := by
  simp only [Gate.sentIn, sent_key]
  split <;> simp_all

/-- Where the packetizer gives a packet, neither the gate nor the epochs move,
    whether the packet fits its buffer or not. -/
theorem vc_encode_more_of_packet {vc : vpt_codec} {packetize : Packetizer} {packet : Packet}
    (hpacket : packetize vc.access_unit vc.enc_pos = some packet) (vpt : vpt_state) {out_size : Nat}
    (hout : out_size ≠ 0) (output : Output) :
    let e := vc_encode_more vc vpt packetize out_size output
    e.vpt = vpt ∧ e.vc.enc_sent_key = vc.enc_sent_key ∧ e.vc.enc_epoch = vc.enc_epoch := by
  unfold vc_encode_more
  rw [if_neg hout]
  simp only [hpacket]
  split
  · exact ⟨rfl, rfl, rfl⟩
  · split <;> exact ⟨rfl, rfl, rfl⟩

/-- Nothing is in a codec that is opened, so its gate is idle. -/
theorem open_move {s : System} {c : Nat} (hidle : (s.call c).stage = .idle) :
    s.gates.step 0 (.open c) = some (s.gates.set c { epoch := 0, sent := false, phase := .idle }) := by
  have hphase : (s.gates.gate c).phase = .idle := by
    simp only [System.gates, Call.gate, hidle]
    split <;> rfl
  simp only [Gates.step, hphase]

section Ready

variable {s : System} {c : Nat} {vc vc' : vpt_codec} {u : Flight} {epoch : UInt32} {keyed : Bool} {clears : Nat}

/-- The codec waits for a keyframe. -/
theorem wait_move (hvc : (s.call c).vc = some vc) (hread : (s.call c).stage = .read u epoch keyed clears)
    (hready : encode_ready vc u.input u.hdr epoch keyed = .ok (false, vc')) :
    s.gates.step 0 (.wait c) = some (s.set_codec c vc' .idle).gates := by
  obtain ⟨hspec, -⟩ := encode_ready_spec hready
  obtain ⟨hsent, hplain⟩ := hspec.waits rfl
  have hlet : (sent_key vc epoch keyed || (item vc u).key) = false := by
    rw [hsent]
    exact hplain
  simp only [Gates.step, gate_eq hvc hread, Stage.phase, sentIn_eq_sent_key, hlet, Bool.false_eq_true, if_false]
  rw [gates_set_codec, hspec.enc_epoch, hspec.enc_sent_key]
  rfl

/-- The access unit in the codec is the one that was taken from the bridge. -/
theorem ready_item (vpt : vpt_state) (hready : encode_ready vc u.input u.hdr epoch keyed = .ok (true, vc')) :
    item vc' u = item vc u ∧ oversized vc' vc'.access_unit = (item vc u).oversize := by
  obtain ⟨hspec, haccess⟩ := encode_ready_spec hready
  have hitem := item_congr (hspec.keeps vpt).prm hspec.enc_single_nal u
  refine ⟨hitem, ?_⟩
  rw [(haccess rfl).1, ← hitem]
  rfl

/-- What the code gets ready to send, and is not too large, the gate lets through.
    The size is checked as the code does, in single-NAL mode only. -/
theorem ready_lets (vpt : vpt_state) (hready : encode_ready vc u.input u.hdr epoch keyed = .ok (true, vc'))
    (hfits : oversized vc' vc'.access_unit = false) :
    (Gate.mk vc.enc_epoch vc.enc_sent_key (.checked (item vc u) epoch keyed clears)).lets (item vc u) epoch keyed =
      true := by
  obtain ⟨hspec, -⟩ := encode_ready_spec hready
  rw [Gate.lets, sentIn_eq_sent_key, ← (ready_item vpt hready).2, hfits, Bool.not_false, Bool.and_true]
  exact Bool.or_eq_true_iff.mpr (hspec.sends rfl).1

/-- What a codec that has let an access unit through leaves in its gate: the epoch
    it read, open, with what it handed over in the log. Whether its stage is over
    then depends on the packetizer. -/
theorem through_eq (hvc : (s.call c).vc = some vc) (hread : (s.call c).stage = .read u epoch keyed clears)
    (hready : encode_ready vc u.input u.hdr epoch keyed = .ok (true, vc')) {vc'' : vpt_codec}
    (hepoch : vc''.enc_epoch = vc'.enc_epoch) (hsent : vc''.enc_sent_key = vc'.enc_sent_key) {stage : Stage}
    {phase : Phase UInt32} (hphase : stage.phase vc'' = phase) :
    s.gates.through c (item vc u) epoch keyed clears phase =
      (s.encoded c vc'' stage (keyed_for vc' s.vpt epoch)
        (s.handed_over c vc u epoch keyed clears :: s.log)).gates := by
  obtain ⟨hspec, -⟩ := encode_ready_spec hready
  have hsatisfies : s.gates.satisfies c (item vc u) epoch keyed clears =
      (s.handed_over c vc u epoch keyed clears).satisfies := by
    simp only [Gates.satisfies, gate_eq hvc hread, sentIn_eq_sent_key]
    rfl
  rw [gates_encoded s c vc'' stage _ (keyed_for_vpt vc' s.vpt epoch), hepoch, hsent, hphase, hspec.enc_epoch,
    hspec.enc_sent_key, keyed_for_keyed_epoch, hspec.enc_key, Gates.through, hsatisfies]
  rfl

end Ready

/-- What is left of an access unit is dropped, or nothing happens to the gate. No
    other gate is looked at in either case. -/
theorem simulates_more {s : System} {c : Nat} {vc : vpt_codec} {packetize : Packetizer} {out_size : Nat}
    {output : Output} (hvc : (s.call c).vc = some vc) (hidle : (s.call c).stage = .idle) {e : Encoded}
    (he : e = vc_encode_more vc s.vpt packetize out_size output) :
    Simulates s (s.encoded c e.vc .idle e.vpt s.log) (.encode_more c packetize out_size output) := by
  subst he
  obtain ⟨hkeeps, hepoch, hcases⟩ := vc_encode_more_cases vc s.vpt packetize out_size output
  have hgate := gate_eq hvc hidle
  have hsame (hsent : (vc_encode_more vc s.vpt packetize out_size output).vc.enc_sent_key = vc.enc_sent_key)
      (hvpt : (vc_encode_more vc s.vpt packetize out_size output).vpt = s.vpt) :
      (s.encoded c (vc_encode_more vc s.vpt packetize out_size output).vc .idle
        (vc_encode_more vc s.vpt packetize out_size output).vpt s.log).gates = s.gates := by
    rw [gates_encoded s c _ .idle _ hkeeps.vpt, hepoch, hsent, hvpt, Stage.phase, ← Stage.phase.eq_1 vc, ← hgate]
    simp only [Gates.set, Function.update_eq_self]
    rfl
  rcases hcases with ⟨-, -, hvc', hvpt⟩ | ⟨-, hsent, hvpt⟩ | ⟨-, hsent, hvpt⟩
  · exact .same (hsame (by rw [hvc']) hvpt)
  · exact .same (hsame hsent hvpt)
  · refine .inert (.drop c) trivial ?_
    rw [gates_encoded s c _ .idle _ hkeeps.vpt, hepoch, hsent, hvpt]
    simp only [Gates.step, hgate, Stage.phase]
    rfl

/-- Every step of the calls on one source is a move of their gates, or none. Nothing
    is assumed of the state, the packetizer or the frames: the conditions come in
    only where a move has to be a timely one. -/
theorem SystemStep.simulates {s t : System} {op : SystemOp} (hstep : SystemStep s op t) : Simulates s t op := by
  cases hstep with
  | push_frame | make_call | not_taken => exact .same rfl
  | clear =>
    refine .restart ?_
    obtain ⟨epoch, hepoch⟩ := pjrs_vpt_source_restarted_eq s.vpt
    simp only [Gates.step, System.gates, hepoch]
  -- The copy the bridge got is no part of a gate.
  | poll c => exact .same (gates_set_same s c rfl)
  | @opened c _ _ vc hidle hsent hepoch =>
    refine .inert (.open c) trivial ?_
    rw [open_move hidle, gates_set]
    simp only [Call.gate, hsent, hepoch, hidle, Stage.phase]
  | @not_opened c _ _ hidle =>
    refine .inert (.open c) trivial ?_
    rw [open_move hidle, gates_set]
    rfl
  | @taken c vc hdr hvc hidle =>
    refine .inert (.hold c (item vc { input := (s.call c).bridge, hdr, era := (s.call c).era })) trivial ?_
    rw [gates_set_codec]
    simp only [Gates.step, gate_eq hvc hidle, Stage.phase]
    rfl
  | @consumed c vc u _ hvc htaken =>
    have hgate : (Call.mk (some vc) (.consumed u) (s.call c).bridge (s.call c).era).gate = (s.call c).gate := by
      simp only [Call.gate, hvc, htaken, Stage.phase]
    exact .same (gates_set_same s c hgate)
  | @read c vc u hvc hconsumed =>
    refine .check c ?_
    rw [gates_set_codec]
    simp only [Gates.step, gate_eq hvc hconsumed, Stage.phase, read_epochs]
    rfl
  | @waits c _ _ _ _ _ _ _ _ _ hvc hread hready => exact .inert (.wait c) trivial (wait_move hvc hread hready)
  | @drops c _ vc' _ _ _ _ _ _ _ e hvc hread hready _ he =>
    refine .inert (.drop c) trivial ?_
    obtain ⟨hspec, -⟩ := encode_ready_spec hready
    simp only [Gates.step, gate_eq hvc hread, Stage.phase]
    rw [gates_encoded s c e.vc .idle e.vpt ⟨0, by rw [he]; rfl⟩ s.log, ← hspec.enc_epoch, he]
    rfl
  | @refused c _ _ _ _ _ _ _ _ _ hvc hread hready hfits =>
    refine .through (.refuse c) (.inr rfl) ?_
    simp only [Gates.step, gate_eq hvc hread, Stage.phase, ready_lets s.vpt hready hfits, if_true]
    exact congrArg some (through_eq hvc hread hready rfl rfl rfl)
  | @sends c _ vc' u epoch _ _ _ _ _ output _ hout hvc hread hready hfits hpacket he =>
    refine .through (.pass c) (.inl rfl) ?_
    obtain ⟨hvpt, hsent, hepoch⟩ := vc_encode_more_of_packet hpacket (keyed_for vc' s.vpt epoch) hout
      { output with timestamp := u.input.timestamp }
    rw [← he] at hvpt hsent hepoch
    simp only [Gates.step, gate_eq hvc hread, Stage.phase, ready_lets s.vpt hready hfits, if_true]
    rw [hvpt]
    exact congrArg some (through_eq hvc hread hready hepoch hsent rfl)
  | @drop_refused c vc e hvc hrefused he =>
    refine .inert (.drop c) trivial ?_
    simp only [Gates.step, gate_eq hvc hrefused, Stage.phase]
    rw [gates_encoded s c e.vc .idle e.vpt ⟨0, by rw [he]; rfl⟩ s.log, he]
    rfl
  | more _ hvc hidle he => exact simulates_more hvc hidle he

end pjsua_rust.concurrent
