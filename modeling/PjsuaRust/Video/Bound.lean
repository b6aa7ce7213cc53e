import PjsuaRust.Video.Discards

open transition

namespace pjsua_rust.video

/-- The push of a non-keyframe that overflows the queue and trims it to its newest
    keyframe, which is at `i`, behind others. -/
structure TrimsToKey (shared : Shared) (frame : List UInt8) (keyframe : Bool) (i : Nat) : Prop where
  nonempty : frame ≠ []
  fits : frame.length ≤ shared.max_frame_size
  plain : keyframe = false
  need_keyframe : shared.queue.need_keyframe = false
  full : shared.max_queue ≤ shared.queue.frames.length
  newest_key : rposition (·.keyframe) shared.queue.frames = some i
  behind : 0 < i

/-- What a push does that trims the queue: it keeps what stands from the newest
    keyframe on, and appends without looking at the length again. -/
theorem VideoPassthrough.push_frame_of_trims {self : Shared} {frame : List UInt8} {keyframe : Bool} {i : Nat}
    (h : TrimsToKey self frame keyframe i) :
    VideoPassthrough.push_frame self frame keyframe =
      { shared := { self with
          queue := Queue.push_back
            { self.queue with frames := self.queue.frames.drop i, need_keyframe := false } frame keyframe }
        result := true, requested := false } := by
  have hsize : (frame.isEmpty || decide (self.max_frame_size < frame.length)) = false := by
    simpa [h.nonempty] using h.fits
  unfold VideoPassthrough.push_frame
  rw [hsize, if_neg Bool.false_ne_true, h.need_keyframe, Bool.false_and, if_neg Bool.false_ne_true]
  dsimp only
  rw [if_pos h.full, h.newest_key]
  dsimp only
  rw [if_pos ⟨h.behind, h.plain⟩]

/-- What a `push_frame` leaves in the queue: on success the frame at its end and
    no more than `max_queue` frames, and otherwise no more than there were. -/
structure PushBounded (before : Shared) (frame : List UInt8) (keyframe : Bool) (pushed : Pushed) : Prop where
  room : pushed.result = true → pushed.shared.queue.frames.length ≤ before.max_queue
  last : pushed.result = true → ∃ front f, pushed.shared.queue.frames = front ++ [f] ∧ f.data = frame ∧
    f.keyframe = keyframe
  not_grown : pushed.result = false → pushed.shared.queue.frames.length ≤ before.queue.frames.length

/-- A `push_frame` that was accepted has put its frame last. -/
theorem push_back_last (q : Queue) (frame : List UInt8) (keyframe : Bool) :
    ∃ front f, (q.push_back frame keyframe).frames = front ++ [f] ∧ f.data = frame ∧ f.keyframe = keyframe :=
  ⟨q.frames, _, rfl, rfl, rfl⟩

/-- A `push_frame` that returned false need only not have grown the queue. The limit
    need not hold, since it may have been lowered before. -/
theorem PushBounded.refused {before : Shared} {frame : List UInt8} {keyframe : Bool} {pushed : Pushed}
    (hresult : pushed.result = false)
    (hle : pushed.shared.queue.frames.length ≤ before.queue.frames.length) :
    PushBounded before frame keyframe pushed := by
  refine ⟨fun htrue => ?_, fun htrue => ?_, fun _ => hle⟩
  · exact absurd (hresult.symm.trans htrue) Bool.false_ne_true
  · exact absurd (hresult.symm.trans htrue) Bool.false_ne_true

/-- One trim is enough exactly if the frames from the newest keyframe on, which
    stay, are fewer than `max_queue`. -/
theorem VideoPassthrough.push_frame_bounded_iff {self : Shared} (hqueue : 1 ≤ self.max_queue)
    (frame : List UInt8) (keyframe : Bool) :
    PushBounded self frame keyframe (VideoPassthrough.push_frame self frame keyframe) ↔
      ∀ i, TrimsToKey self frame keyframe i → self.queue.frames.length - i < self.max_queue := by
  constructor
  · intro hbounded i htrims
    rw [VideoPassthrough.push_frame_of_trims htrims] at hbounded
    have hroom := hbounded.room rfl
    simp only [Queue.push_back, List.length_append, List.length_drop, List.length_singleton] at hroom
    omega
  · intro henough
    have hstep := VideoPassthrough.push_frame_step self frame keyframe
    generalize VideoPassthrough.push_frame self frame keyframe = pushed at hstep
    cases hstep with
    | size => exact .refused rfl (Nat.le_refl _)
    | waiting => exact .refused rfl (Nat.le_refl _)
    | flushed => exact .refused rfl (Nat.zero_le _)
    | accepted hframe hneed kept hkept =>
      refine ⟨fun _ => ?_, fun _ => push_back_last _ frame keyframe,
        fun hfalse => absurd hfalse.symm Bool.false_ne_true⟩
      simp only [Queue.push_back, List.length_append, List.length_singleton]
      cases hkept with
      | room hroom => exact hroom
      | none => exact hqueue
      | newest_key hfull i hkey hpos hplain =>
        have hclear : self.queue.need_keyframe = false := by
          cases hwaits : self.queue.need_keyframe with
          | false => rfl
          | true => exact absurd (hplain.symm.trans (hneed hwaits)) Bool.false_ne_true
        have := henough i ⟨hframe.1, hframe.2, hplain, hclear, hfull, hkey, hpos⟩
        rw [List.length_drop]
        omega

/-- The limit is never zero, whatever is configured: a configuration of zero counts
    as one, at the install and at every reconfiguration. -/
theorem max_queue_pos_of_reach {config : PassthroughConfig} {ok : QueueRun → QueueOp → Prop} {s : QueueRun}
    (hreach : (queues config).Reach ok s) : 1 ≤ s.shared.max_queue := by
  refine hreach.invariant (P := fun s => 1 ≤ s.shared.max_queue) (Nat.le_max_right _ _) ?_
  intro s op t _ _ hstep hpos
  cases op with
  | push_frame frame keyframe =>
    cases hstep
    have hpush := VideoPassthrough.push_frame_step s.shared frame keyframe
    unfold QueueRun.push_frame
    dsimp only
    generalize VideoPassthrough.push_frame s.shared frame keyframe = pushed at hpush
    cases hpush <;> exact hpos
  | capture_consumed id =>
    cases hstep
    exact hpos
  | keyframe_request =>
    cases hstep
    exact hpos
  | reconfigure config =>
    cases hstep
    exact Nat.le_max_right _ _
  | clear =>
    cases hstep
    exact hpos

/-- What a step of the queue's life does, if it is a `push_frame`. -/
def StepBounded (s : QueueRun) (op : QueueOp) (_ : QueueRun) : Prop :=
  ∀ frame keyframe, op = .push_frame frame keyframe →
    PushBounded s.shared frame keyframe (VideoPassthrough.push_frame s.shared frame keyframe)

/-- A `push_frame` that trims to the newest keyframe leaves room for its own
    frame. -/
def TrimEnough (s : QueueRun) : QueueOp → Prop
  | .push_frame frame keyframe =>
    ∀ i, TrimsToKey s.shared frame keyframe i → s.shared.queue.frames.length - i < s.shared.max_queue
  | _ => True

/-- The bound holds at every `push_frame` of a run exactly if each one that trims
    the queue to its newest keyframe finds fewer than `max_queue` frames from there
    on. The run and the configuration are arbitrary; a condition is needed only
    because `max_queue` may be lowered under a queue that is longer. -/
theorem queue_bounded_iff (config : PassthroughConfig) (ops : List QueueOp) :
    (queues config).EachStep StepBounded (queues config).start ops ↔
      (queues config).Admits TrimEnough (queues config).start ops := by
  have htotal : ∀ s op, ∃ t, (queues config).step s op = some t := by
    intro s op
    cases op <;> exact ⟨_, rfl⟩
  obtain ⟨t, hexec⟩ := (queues config).exec_total htotal (queues config).start ops
  apply Machine.Reach.start.eachStep_iff _ hexec
  intro s op t hreach _
  cases op with
  | push_frame frame keyframe =>
    rw [TrimEnough, ← VideoPassthrough.push_frame_bounded_iff (max_queue_pos_of_reach hreach)]
    refine ⟨fun h => h frame keyframe rfl, fun h frame' keyframe' heq => ?_⟩
    cases heq
    exact h
  | _ =>
    refine iff_of_true (fun frame keyframe heq => ?_) trivial
    cases heq

/-- A reconfiguration leaves room for what is queued. -/
def NotLowered (s : QueueRun) : QueueOp → Prop
  | .reconfigure config => s.shared.queue.frames.length ≤ max config.max_queue 1
  | _ => True

/-- Where `max_queue` is never lowered below what is queued, one trim is always
    enough. -/
theorem trim_enough_of_reach {config : PassthroughConfig} {s : QueueRun}
    (hreach : (queues config).Reach NotLowered s) (op : QueueOp) : TrimEnough s op := by
  have hlength : s.shared.queue.frames.length ≤ s.shared.max_queue := by
    refine hreach.invariant (P := fun s => s.shared.queue.frames.length ≤ s.shared.max_queue) (Nat.zero_le _) ?_
    intro s op t hprev hok hstep hlength
    have hpos := max_queue_pos_of_reach hprev
    cases op with
    | push_frame frame keyframe =>
      cases hstep
      have hbounded := (VideoPassthrough.push_frame_bounded_iff hpos frame keyframe).mpr fun i htrims => by
        have := htrims.behind
        omega
      have hsame : (VideoPassthrough.push_frame s.shared frame keyframe).shared.max_queue = s.shared.max_queue := by
        have hpush := VideoPassthrough.push_frame_step s.shared frame keyframe
        generalize VideoPassthrough.push_frame s.shared frame keyframe = pushed at hpush
        cases hpush <;> rfl
      simp only [QueueRun.push_frame, hsame]
      cases hresult : (VideoPassthrough.push_frame s.shared frame keyframe).result with
      | true => exact hbounded.room hresult
      | false => exact (hbounded.not_grown hresult).trans hlength
    | capture_consumed id =>
      cases hstep
      exact (List.IsSuffix.length_le (s.shared.queue.consume_through_suffix id)).trans hlength
    | keyframe_request =>
      cases hstep
      exact hlength
    | reconfigure config =>
      cases hstep
      exact hok
    | clear =>
      cases hstep
      exact Nat.zero_le _
  cases op with
  | push_frame frame keyframe =>
    intro i htrims
    have := htrims.behind
    have := max_queue_pos_of_reach hreach
    omega
  | _ => trivial

/-- Three frames are queued, the second a keyframe, and `max_queue` is lowered to
    one: the next frame is queued behind the keyframe and the third. -/
def lowered : List QueueOp :=
  [.push_frame [0] false, .push_frame [1] true, .push_frame [2] false, .reconfigure { max_queue := 1 },
    .push_frame [3] false]

/-- With the limit lowered from 8 to 1, a push to a queue of three frames trims it
    to its keyframe and what follows that, and leaves three again. -/
theorem not_queue_bounded :
    ¬ ∀ (config : PassthroughConfig) (ops : List QueueOp),
      (queues config).EachStep StepBounded (queues config).start ops := by
  intro hclaim
  have hpushes := hclaim {} lowered
  have hbounded := (((((hpushes _ rfl).2 _ rfl).2 _ rfl).2 _ rfl).2 _ rfl).1 [3] false rfl
  exact absurd (hbounded.room rfl) (by decide)

end pjsua_rust.video
