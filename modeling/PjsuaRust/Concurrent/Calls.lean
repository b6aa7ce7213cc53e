import PjsuaRust.Concurrent.Restart

open pjsua_rust.video pjsua_rust.video_passthrough pjsua_rust.sending transition gating

namespace pjsua_rust.concurrent

/-- How the application makes its calls: each after a clear of its own, with a
    codec opened for no other call, and with nothing that is dropped as too
    large. -/
def ClearedCalls (s : System) : SystemOp → Prop
  | .poll _ buf => buf.Exact s.vpt
  | .make_call c => s.cleared = true ∧ c ∉ s.calls
  | .open c _ _ => c ∈ s.calls
  | .encode_send c .. => ∀ vc u epoch keyed clears, (s.call c).vc = some vc →
      (s.call c).stage = .read u epoch keyed clears → (item vc u).oversize = false
  | .drop_oversized _ => False
  | .encode_more c packetize out_size output => ∀ vc, (s.call c).vc = some vc →
      (vc_encode_more vc s.vpt packetize out_size output).fate ≠ .dropped
  | _ => True

/-- The condition on a step. Before anything was handed over for a call, its
    codec reads an epoch that is new to it, with another frame than a keyframe in
    hand, only while no codec has sent a keyframe in that epoch. -/
def KeyUnknown (s : System) : SystemOp → Prop
  | .read_epochs c => (∀ p ∈ s.log, p.gate ≠ c) → ∀ vc u, (s.call c).vc = some vc →
      (s.call c).stage = .consumed u → vc.enc_epoch ≠ s.vpt.source_epoch → u.hdr.key = false →
      s.vpt.keyed_epoch ≠ s.vpt.source_epoch
  | _ => True

/-- Reading the epochs under the condition is an unkeyed check of the gate: a gate
    that nothing went through yet is not opened by another one's key. -/
theorem KeyUnknown.unkeyed {s t : System} {c : Nat} (hunknown : KeyUnknown s (.read_epochs c))
    (hstep : s.step (.read_epochs c) = some t) : Unkeyed s.gates (.check c) := by
  cases System.step_inv hstep with
  | read hvc hconsumed =>
    intro huntouched hepoch x hphase hplain
    rw [gate_eq hvc hconsumed] at hepoch hphase
    cases hphase
    exact hunknown huntouched _ _ hvc hconsumed hepoch hplain

theorem Inert.unkeyed {m : Move UInt32} (hinert : Inert m) (s : Gates UInt32) : Unkeyed s m := by
  cases m with
  | check => exact hinert.elim
  | restart | «open» | hold | wait | pass | refuse | drop => trivial

/-- In every run in which no codec is let through by a keyframe another codec sent,
    the first access unit handed to the packetizer for a call is a keyframe. Each
    call is made after a clear of its own and opens its own codec, and nothing is
    dropped as too large; the pushes, polls and encodes of the calls come in any
    order. -/
theorem call_starts_on_key {p p' : Process} {config : PassthroughConfig} {out : InitOutcome} {k : Nat}
    (hinstall : VideoPassthrough.install p config out = (.ok k, p')) {s : System}
    (hreach : (system config p'.module.vpt).Reach (fun s op => ClearedCalls s op ∧ KeyUnknown s op) s) :
    StartsOnKey s.log := by
  obtain ⟨-, -, -, -, -, -, hkeyed⟩ := install_ok hinstall
  have hrefines : (gates 0 p'.module.vpt.source_epoch).Reach Unkeyed s.gates := by
    refine hreach.refines System.gates (gates_start hkeyed) ?_
    intro s op t _ hok hstep
    cases (System.step_inv hstep).simulates with
    | same heq => exact .inl heq
    | restart hmove => exact .inr ⟨.restart _, trivial, hmove⟩
    | check c hmove => exact .inr ⟨_, hok.2.unkeyed hstep, hmove⟩
    | through m hthrough hmove =>
      refine .inr ⟨m, ?_, hmove⟩
      rcases hthrough with rfl | rfl <;> trivial
    | inert m hinert hmove => exact .inr ⟨m, hinert.unkeyed _, hmove⟩
  exact startsOnKey_of_reach hrefines

/-- Two calls, each after a clear of its own, and what they send. The codec of the
    second one gets a frame that is no keyframe before it gets the keyframe, and
    the codec of the first one is still open. -/
def two_calls : List SystemOp :=
  [.clear, .make_call 0, .open 0 sendrecv_param mode_1, .push_frame [0] true, .poll 0 (.zero 17)] ++ encode_steps 0 ++
  [.clear, .make_call 1, .open 1 sendrecv_param mode_1, .push_frame [1] false, .poll 0 (.zero 17),
    .poll 1 (.zero 17)] ++ encode_steps 1 ++ encode_steps 0 ++
  [.push_frame [2] true, .poll 1 (.zero 17)] ++ encode_steps 1 ++
  [.push_frame [3] false, .poll 1 (.zero 17)] ++ encode_steps 1

/-- A test of the condition on a step. -/
def calls_test (s : System) : SystemOp → Bool
  | .poll _ buf => buf.Exact s.vpt
  | .make_call c => s.cleared && !s.calls.contains c
  | .open c _ _ => s.calls.contains c
  | .encode_send c .. =>
    match (s.call c).vc, (s.call c).stage with
    | some vc, .read u _ _ _ => !(item vc u).oversize
    | _, _ => false
  | .read_epochs c =>
    s.log.any (·.gate == c) ||
      match (s.call c).vc, (s.call c).stage with
      | some vc, .consumed u =>
        vc.enc_epoch == s.vpt.source_epoch || u.hdr.key || s.vpt.keyed_epoch != s.vpt.source_epoch
      | _, _ => false
  | .drop_oversized _ | .encode_more .. => false
  | _ => true

/-- What passes the test meets both conditions. The converse does not hold: the test
    turns down every drop and every packet after the first. -/
theorem calls_test_sound {s : System} {op : SystemOp} (htest : calls_test s op = true) :
    ClearedCalls s op ∧ KeyUnknown s op := by
  cases op with
  | poll c buf =>
    have hexact : buf.Exact s.vpt := of_decide_eq_true htest
    exact ⟨hexact, trivial⟩
  | make_call c =>
    simp only [calls_test, Bool.and_eq_true, Bool.not_eq_true', List.contains_eq_mem,
      decide_eq_false_iff_not] at htest
    exact ⟨htest, trivial⟩
  | «open» c =>
    simp only [calls_test, List.contains_eq_mem, decide_eq_true_eq] at htest
    exact ⟨htest, trivial⟩
  | encode_send c =>
    refine ⟨fun vc u epoch keyed clears hvc hstage => ?_, trivial⟩
    simpa only [calls_test, hvc, hstage, Bool.not_eq_true'] using htest
  | read_epochs c =>
    refine ⟨trivial, fun huntouched vc u hvc hstage hepoch hplain => ?_⟩
    have hnone : s.log.any (·.gate == c) = false := by
      simpa only [List.any_eq_false, beq_iff_eq] using huntouched
    simpa only [calls_test, hnone, hvc, hstage, hplain, Bool.false_or, Bool.or_false, Bool.or_eq_true, beq_iff_eq,
      bne_iff_ne, hepoch, false_or] using htest
  | drop_oversized | encode_more => cases htest
  | push_frame | clear | encode_begin | capture_consumed => exact ⟨trivial, trivial⟩

theorem two_calls_admitted :
    (system small_config small_module.vpt).Admits (fun s op => ClearedCalls s op ∧ KeyUnknown s op)
      (system small_config small_module.vpt).start two_calls := by
  refine Machine.Admits.of_tests (fun _ => True) calls_test ?_ (fun _ _ _ _ _ _ => trivial) trivial
    (by decide +kernel)
  exact fun s op _ htest => calls_test_sound htest

/-- The second call leaves out the frame it gets first, although the codec of the
    first call sends it in between, and starts on the next keyframe. -/
theorem call_starts_on_key_two_calls :
    ∃ s, (system small_config small_module.vpt).exec (system small_config small_module.vpt).start two_calls =
        some s ∧
      s.log = [
        { gate := 1, read := 2, item := { key := false, era := 2, oversize := false }, satisfies := none },
        { gate := 1, read := 2, item := { key := true, era := 2, oversize := false }, satisfies := some 2 },
        { gate := 0, read := 1, item := { key := true, era := 1, oversize := false }, satisfies := some 1 }] ∧
      StartsOnKey s.log := by
  refine Machine.exists_exec System.log (by decide +kernel) fun s hexec hlog => ⟨hlog, ?_⟩
  exact call_starts_on_key small_install (Machine.Reach.exec .start two_calls_admitted hexec)

/-- Both calls are made after a clear of their own, and the first one sends the
    keyframe before the codec of the second one is open. -/
def second_call : List SystemOp :=
  [.clear, .make_call 0, .open 0 sendrecv_param mode_1, .clear, .make_call 1, .push_frame [0] true,
    .poll 0 (.zero 17)] ++ encode_steps 0 ++
  [.open 1 sendrecv_param mode_1, .push_frame [1] false, .poll 1 (.zero 17)] ++ encode_steps 1

theorem second_call_admitted :
    (system small_config small_module.vpt).Admits ClearedCalls (system small_config small_module.vpt).start
      second_call := by
  refine .cons rfl trivial <| .cons rfl ⟨rfl, by decide⟩ <| .cons rfl List.mem_cons_self <| .cons rfl trivial <|
    .cons rfl ⟨rfl, by decide⟩ <| .cons rfl trivial <| .cons rfl ⟨rfl, rfl⟩ <| .cons rfl trivial <|
    .cons rfl trivial <| .cons rfl trivial <| .cons rfl ?_ <| .cons rfl List.mem_cons_self <| .cons rfl trivial <|
    .cons rfl ⟨rfl, rfl⟩ <| .cons rfl trivial <| .cons rfl trivial <| .cons rfl trivial <| .cons rfl ?_ trivial
  all_goals
    intro vc u epoch keyed clears hvc hstage
    cases hvc
    cases hstage
    decide

/-- The codec of the second call takes the keyframe of the first one for its own:
    one `keyed_epoch` stands for all codecs. -/
theorem not_call_starts_on_key :
    ¬ ∀ (p p' : Process) (config : PassthroughConfig) (out : InitOutcome) (k : Nat) (s : System),
      VideoPassthrough.install p config out = (.ok k, p') →
      (system config p'.module.vpt).Reach ClearedCalls s → StartsOnKey s.log := by
  intro hclaim
  have hreach := fun s => Machine.Reach.exec (t := s) .start second_call_admitted
  have hkey := hclaim _ _ small_config _ _ _ small_install (hreach _ rfl)
  rcases hkey _ _ (List.suffix_refl _) with hkey | ⟨p, hp, hgate⟩
  · exact absurd hkey (by decide)
  · rw [List.mem_singleton.mp hp] at hgate
    exact absurd hgate (by decide)

end pjsua_rust.concurrent
