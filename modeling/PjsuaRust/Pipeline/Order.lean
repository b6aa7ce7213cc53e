import PjsuaRust.Pipeline.Calls
import PjsuaRust.Passthrough.Pairing

open pjsua_rust.video pjsua_rust.video_passthrough transition feeds serial

namespace pjsua_rust.sending

/-- How frames leave the queue in one call: in a push only by an overflow, in an
    encode only the front where it is the frame taken, and all of them in a
    clear. Nothing else removes any. -/
def Leaves (s : Pipeline) (op : PipelineOp) (t : Pipeline) : Prop :=
  match op with
  | .push_frame _ _ => s.shared.queue.frames <+: t.shared.queue.frames ∨
      s.shared.max_queue ≤ s.shared.queue.frames.length
  | .clear => t.shared.queue.frames = []
  | .encode_begin .. => t.shared.queue.frames = s.shared.queue.frames ∧ s.taken <+: t.taken ∨
      ∃ q, s.shared.queue.frames = q :: t.shared.queue.frames ∧ t.taken = s.taken ++ [q]
  | _ => t.shared.queue.frames = s.shared.queue.frames

/-- Every call of a run leaves a pipeline that implements a feed, and takes frames
    out of the queue only in the ways that `Leaves` names. One case for each call;
    only the encode and the poll need the condition. -/
theorem Represents.step {size : Nat} {s t : Pipeline} {f : Feed Accepted} {op : PipelineOp}
    (hrep : Represents size s f) (hinv : f.Inv) (hfresh : Fresh s op) (hstep : s.step op = some t) :
    (∃ f', Represents size t f' ∧ f'.Inv) ∧ Leaves s op t := by
  cases op with
  | push_frame frame keyframe =>
    cases hstep
    obtain ⟨f', hrep', hinv', hmove⟩ := hrep.push hinv frame keyframe
    refine ⟨⟨f', hrep', hinv'⟩, ?_⟩
    cases hmove with
    | size _ hshared => exact .inl (by rw [hshared])
    | waiting _ hshared => exact .inl (by rw [hshared])
    | flushed hfull => exact .inr hfull
    | room _ _ _ _ _ _ hframes => exact .inl (by rw [hframes]; exact List.prefix_append _ _)
    | overflow _ _ _ _ _ hfull => exact .inr hfull
  | clear =>
    refine ⟨⟨_, hrep.clear hstep, hinv.drop hinv.front (Nat.le_refl _)⟩, ?_⟩
    cases hstep
    rfl
  | reconfigure config out =>
    obtain ⟨hrep', hqueue⟩ := hrep.reconfigure hstep
    exact ⟨⟨f, hrep', hinv⟩, congrArg _ hqueue⟩
  | poll buf =>
    obtain ⟨hrep', hshared, -⟩ := hrep.poll hinv hfresh hstep
    have hframes : t.shared.queue.frames = s.shared.queue.frames := by rw [hshared]
    exact ⟨⟨_, hrep', hinv.peek⟩, hframes⟩
  | alloc =>
    cases Pipeline.step_inv hstep with
    | alloc hclosed =>
      exact ⟨⟨f, hrep.keep_queue (.refl _) ⟨rfl, rfl⟩ rfl rfl rfl (fun h => absurd h hclosed) rfl, hinv⟩, rfl⟩
  | «open» param out =>
    refine ⟨⟨_, hrep.open hstep, hinv.restart⟩, ?_⟩
    cases Pipeline.step_inv hstep
    rfl
  | modify avg_bps max_bps =>
    refine ⟨⟨f, hrep.modify hstep, hinv⟩, ?_⟩
    cases Pipeline.step_inv hstep
    rfl
  | close =>
    cases hstep
    exact ⟨⟨f, hrep.keep_queue (.refl _) ⟨rfl, rfl⟩ rfl rfl rfl (fun h => by cases h) rfl, hinv⟩, rfl⟩
  | encode_begin force_keyframe packetize out_size output =>
    obtain ⟨f', hrep', hinv', hmove, -⟩ := hrep.encode_begin hinv hfresh hstep
    refine ⟨⟨f', hrep', hinv'⟩, ?_⟩
    cases hmove with
    | refused hshared _ _ htaken => exact .inl ⟨by rw [hshared], by rw [htaken]⟩
    | taken _ _ _ _ a _ _ _ _ _ _ hqueue _ _ htaken =>
      rcases hqueue with hsame | ⟨rest, hframes, hrest⟩
      · exact .inl ⟨by rw [hsame], htaken ▸ List.prefix_append _ _⟩
      · exact .inr ⟨a.frame, by rw [hrest, hframes], htaken⟩
  | encode_more packetize out_size output =>
    obtain ⟨hrep', hshared⟩ := hrep.encode_more hstep
    have hframes : t.shared.queue.frames = s.shared.queue.frames := by rw [hshared]
    exact ⟨⟨f, hrep', hinv⟩, hframes⟩

/-- In every state of a run the pipeline is a feed that keeps its invariant. Only
    the conditions on the bridge's buffers and on the ids in play are assumed of the
    run. -/
theorem represents_of_reach {config : PassthroughConfig} {module : Module}
    (hinstalled : Installed config module) {s : Pipeline}
    (hreach : (pipeline config module).Reach Fresh s) :
    ∃ f, Represents config.max_frame_size s f ∧ f.Inv := by
  refine hreach.invariant (P := fun s => ∃ f, Represents config.max_frame_size s f ∧ f.Inv)
    ⟨{}, hinstalled.represents, .empty⟩ ?_
  rintro s op t - hfresh hstep ⟨f, hrep, hinv⟩
  exact (hrep.step hinv hfresh hstep).1

/-- The codec takes accepted frames in order, each at most once and as it was
    pushed, and a frame leaves the queue only by being the one taken, by an overflow
    or by a clear. Of a run it is assumed that the bridge's buffers are as large as
    the device says, and that at most `2 ^ 31` frames are accepted from the push of
    a polled frame to the encode of its buffer; its pushes, polls, encodes, clears
    and reconfigurations come in any order, and nothing is assumed of the
    packetizer. -/
theorem taken_in_order {config : PassthroughConfig} {module : Module}
    (hinstalled : Installed config module) {s : Pipeline}
    (hreach : (pipeline config module).Reach Fresh s) :
    s.taken.Sublist (s.accepted.map Accepted.frame) ∧
      ∀ op t, Fresh s op → s.step op = some t → Leaves s op t := by
  obtain ⟨f, hrep, hinv⟩ := represents_of_reach hinstalled hreach
  refine ⟨?_, fun op t hfresh hstep => (hrep.step hinv hfresh hstep).2⟩
  rw [hrep.taken, ← hrep.accepted]
  exact hinv.taken_sublist.map _

/-- A configuration for frames of one byte. -/
def small_config : PassthroughConfig := { max_frame_size := 1 }

def small_module : Module := (VideoPassthrough.install installs.start small_config {}).2.module

theorem small_install : VideoPassthrough.install installs.start small_config {} =
    (.ok 0, (VideoPassthrough.install installs.start small_config {}).2) := rfl

theorem small_installed : Installed small_config small_module :=
  ⟨⟨installs.start, {}, 0, _, small_install, rfl⟩, by decide⟩

/-- A packetizer that makes one packet of an access unit. -/
def whole : Packetizer := fun frame _ => some { pos := UInt32.ofNat frame.length, payload := frame }

/-- Six frames for a queue of two. The first is encoded twice; the third and the
    fifth are encoded from a copy, after an overflow dropped the one and a clear the
    other; the fourth goes with the overflow. -/
def six_frames : List PipelineOp :=
  let encode : PipelineOp := .encode_begin false whole 1400 {}
  [.alloc, .open sendrecv_param mode_1, .reconfigure { small_config with max_queue := 2 } {},
    .push_frame [0] true, .push_frame [1] false, .poll (.zero 17), encode, encode, .poll (.zero 17), encode,
    .push_frame [2] true, .push_frame [3] false, .poll (.zero 17), .push_frame [4] true, encode,
    .poll (.zero 17), .clear, encode, .push_frame [5] true, .poll (.zero 17), encode]

theorem six_frames_admitted :
    (pipeline small_config small_module).Admits Fresh (pipeline small_config small_module).start six_frames := by
  refine Machine.Admits.of_tests (fun _ => True) (fun s op => decide (Fresh s op)) ?_
    (fun _ _ _ _ _ _ => trivial) trivial (by decide +kernel)
  exact fun s op _ htest => of_decide_eq_true htest

/-- All of this happens to the six frames: only the fourth, which the overflow
    dropped before it was polled, is not taken. -/
theorem taken_in_order_six_frames :
    ∃ s, (pipeline small_config small_module).exec (pipeline small_config small_module).start six_frames = some s ∧
      s.accepted.map (·.frame.id) = [1, 2, 3, 4, 5, 6] ∧ s.taken.map Queued.id = [1, 2, 3, 5, 6] ∧
      s.taken.Sublist (s.accepted.map Accepted.frame) := by
  refine Machine.exists_exec (fun s => (s.accepted.map (·.frame.id), s.taken.map Queued.id))
    (b := ([1, 2, 3, 4, 5, 6], [1, 2, 3, 5, 6])) (by decide +kernel) fun s hexec hs => ?_
  obtain ⟨haccepted, htaken⟩ := Prod.mk.inj hs
  exact ⟨haccepted, htaken,
    (taken_in_order small_installed (Machine.Reach.exec .start six_frames_admitted hexec)).1⟩

/-- The bound on the ids in play that counts from the poll only: fewer than
    `2 ^ 31` pushes between a poll and the encode of its buffer, and a queue that
    is to hold fewer than `2 ^ 31 - 1` frames. -/
def FreshSincePoll (s : Pipeline) : PipelineOp → Prop
  | .poll buf => buf.Exact s.module.vpt
  | .encode_begin .. => s.since_poll < 2 ^ 31
  | .reconfigure config _ => config.max_queue < 2 ^ 31 - 1
  | _ => True

/-- A keyframe pushed to a full queue replaces all of it. Its id is the next one,
    whatever became of the frames before it. -/
theorem push_frame_full {self : Shared} (hsize : 1 ≤ self.max_frame_size)
    (hfull : self.max_queue ≤ self.queue.frames.length) :
    VideoPassthrough.push_frame self [0] true =
      { shared := { self with
          queue := Queue.push_back { self.queue with frames := [], need_keyframe := false } [0] true }
        result := true, requested := false } := by
  have hstep := VideoPassthrough.push_frame_step self [0] true
  generalize VideoPassthrough.push_frame self [0] true = pushed at hstep ⊢
  cases hstep with
  | size hlarge =>
    rcases hlarge with hnil | hlt
    · cases hnil
    · simp only [List.length_singleton] at hlt
      omega
  | waiting _ _ hplain => cases hplain
  | flushed _ _ hplain => cases hplain
  | accepted _ _ kept hkept =>
    cases hkept with
    | room hroom => omega
    | newest_key _ _ _ _ hplain => cases hplain
    | none => rfl

/-- Keyframes pushed one after the other to a queue for one frame leave just the
    last of them. -/
theorem push_many (config : PassthroughConfig) (module : Module) {s : Pipeline} {k : Nat}
    (hreach : (pipeline config module).Reach FreshSincePoll s) (hsize : 1 ≤ s.shared.max_frame_size)
    (hqueue : s.shared.max_queue = 1) (hfull : 1 ≤ s.shared.queue.frames.length)
    (hnext : s.shared.queue.next_id = u32 k) (n : Nat) :
    ∃ t, (pipeline config module).Reach FreshSincePoll t ∧ t.shared.max_frame_size = s.shared.max_frame_size ∧
      t.shared.max_queue = 1 ∧ t.shared.queue.next_id = u32 (k + n + 1) ∧
      t.shared.queue.frames = [{ id := u32 (k + n), data := [0], keyframe := true }] ∧
      t.since_poll = s.since_poll + n + 1 ∧ t.module = s.module ∧ t.bridge = s.bridge ∧
      t.codec = s.codec ∧ t.is_open = s.is_open ∧ t.taken = s.taken := by
  have hone {u : Pipeline} {i : Nat} (hsize' : u.shared.max_frame_size = s.shared.max_frame_size)
      (hqueue' : u.shared.max_queue = 1) (hfull' : 1 ≤ u.shared.queue.frames.length)
      (hnext' : u.shared.queue.next_id = u32 i) :
      (u.push_frame [0] true).shared = { u.shared with
        queue := { frames := [{ id := u32 i, data := [0], keyframe := true }]
                   next_id := u32 (i + 1), need_keyframe := false } } := by
    rw [Pipeline.push_frame, push_frame_full (by omega) (by omega)]
    simp only [Queue.push_back, List.nil_append, hnext', Shared.mk.injEq, Queue.mk.injEq, and_true, true_and]
    exact u32_succ i _ (max_one_eq _)
  induction n with
  | zero =>
    have hshared := hone rfl hqueue hfull hnext
    refine ⟨s.push_frame [0] true, .step (a := .push_frame [0] true) hreach trivial rfl, ?_⟩
    rw [hshared]
    exact ⟨rfl, hqueue, rfl, rfl, rfl, rfl, rfl, rfl, rfl, rfl⟩
  | succ n ih =>
    obtain ⟨t, hreach', hsize', hqueue', hnext', hframes', hsince', hmodule, hbridge, hcodec, hopen, htaken⟩ := ih
    have hshared := hone hsize' hqueue' (by rw [hframes', List.length_singleton]) hnext'
    refine ⟨t.push_frame [0] true, .step (a := .push_frame [0] true) hreach' trivial rfl, ?_⟩
    rw [hshared]
    refine ⟨hsize', hqueue', rfl, rfl, ?_, hmodule, hbridge, hcodec, hopen, htaken⟩
    simp only [Pipeline.push_frame, hsince']
    omega

/-- Three keyframes are queued, the first is polled, and the queue is then to
    hold one frame only. -/
def three_polled : List PipelineOp :=
  [.alloc, .open sendrecv_param mode_1, .push_frame [0] true, .push_frame [0] true, .push_frame [0] true,
    .poll (.zero 17), .reconfigure { small_config with max_queue := 1 } {}]

theorem three_polled_admitted :
    (pipeline small_config small_module).Admits FreshSincePoll (pipeline small_config small_module).start
      three_polled := by
  exact .cons rfl trivial <| .cons rfl trivial <| .cons rfl trivial <| .cons rfl trivial <| .cons rfl trivial <|
    .cons rfl ⟨rfl, rfl⟩ <| .cons rfl (show (1 : Nat) < 2 ^ 31 - 1 by decide) trivial

/-- The id of the first frame is at or after that of a frame accepted
    `2 ^ 31 + 1` places later. -/
theorem stale_id_atOrAfter : 0 ≤ (u32 0 - u32 (2 ^ 31 + 1)).toInt32 := by
  rw [zero_le_sub_toInt32_iff, toNat_u32, toNat_u32]
  decide

/-- Counted from the poll, the bound is too weak: the stale copy of a frame that was
    dropped long ago removes a frame pushed after it. Its id is the number half a
    cycle away. -/
theorem not_taken_in_order_since_poll :
    ¬ ∀ (config : PassthroughConfig) (module : Module) (s : Pipeline), Installed config module →
      config.max_queue < 2 ^ 31 - 1 → (pipeline config module).Reach FreshSincePoll s →
      s.taken.Sublist (s.accepted.map Accepted.frame) ∧
        ∀ op t, FreshSincePoll s op → s.step op = some t → Leaves s op t := by
  intro hclaim
  -- The encode of the bridge's buffer takes the first frame, whatever the queue holds by then.
  obtain ⟨s, vc, e, hdr, hs, hsize, hqueue, hfull, hnext, hsince, hcodec, hopen, hid, hencode⟩ : ∃ s vc e hdr,
      (pipeline small_config small_module).exec (pipeline small_config small_module).start three_polled = some s ∧
      1 ≤ s.shared.max_frame_size ∧ s.shared.max_queue = 1 ∧ 1 ≤ s.shared.queue.frames.length ∧
      s.shared.queue.next_id = u32 3 ∧ s.since_poll = 0 ∧ s.codec = some vc ∧ s.is_open = true ∧
      (au_frame s.bridge).id = u32 0 ∧
      ∀ shared, vc_encode_begin vc s.module.vpt (some shared) false s.bridge whole 1400 {} =
        .ok { encoded := e, slot := some (capture_consumed shared (u32 0)), consumed := some hdr } :=
    ⟨_, _, _, _, rfl, by decide, rfl, by decide, by decide, rfl, rfl, rfl, rfl, fun _ => rfl⟩
  obtain ⟨t, hreach, -, -, -, hframes, hsince', hmodule, hbridge, hcodec', hopen', -⟩ :=
    push_many small_config small_module (Machine.Reach.exec .start three_polled_admitted hs)
      hsize hqueue hfull hnext (2 ^ 31 - 2)
  obtain ⟨u, hu, hshared, htaken⟩ : ∃ u, t.step (.encode_begin false whole 1400 {}) = some u ∧
      u.shared = capture_consumed t.shared (u32 0) ∧ u.taken = t.taken ++ [au_frame s.bridge] := by
    simp only [Pipeline.step, Pipeline.encode_begin, hcodec', hcodec, hopen', hopen, hmodule, hbridge, hencode]
    exact ⟨_, rfl, rfl, rfl⟩
  have hempty : u.shared.queue.frames = [] := by
    rw [hshared, capture_consumed, Queue.consume_through, hframes]
    simp only [List.dropWhile_cons, show 3 + (2 ^ 31 - 2) = 2 ^ 31 + 1 by decide, stale_id_atOrAfter,
      decide_true, if_true, List.dropWhile_nil]
  have hleaves := (hclaim small_config small_module t small_installed (by decide) hreach).2
    (.encode_begin false whole 1400 {}) u (by rw [FreshSincePoll]; omega) hu
  rcases hleaves with ⟨hsame, -⟩ | ⟨q, hq, hlast⟩
  · rw [hempty, hframes] at hsame
    cases hsame
  · rw [hframes, List.cons.injEq] at hq
    rw [htaken, List.append_cancel_left_eq, List.cons.injEq] at hlast
    have hsame : u32 (3 + (2 ^ 31 - 2)) = u32 0 := by rw [← hid, hlast.1, ← hq.1]
    have hnat := congrArg UInt32.toNat hsame
    rw [toNat_u32, toNat_u32] at hnat
    exact absurd hnat (by decide)

end pjsua_rust.sending
