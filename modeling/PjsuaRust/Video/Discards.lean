import PjsuaRust.Transition.Log
import PjsuaRust.Video.Install

open pjsua_rust.video_passthrough transition

namespace pjsua_rust.video

/-- What happens to the queue, as far as discards go: what `need_keyframe` is
    left at, a call of `on_keyframe_request`, and a `push_frame` with its
    result. -/
inductive QueueNotice where
  | need_keyframe (need : Bool)
  | on_keyframe_request
  | push_frame (frame : List UInt8) (keyframe result : Bool)
deriving DecidableEq, Repr

/-- A queue in use, with its history, newest first. -/
structure QueueRun where
  shared : Shared
  log : List QueueNotice
deriving DecidableEq, Repr

inductive QueueOp where
  | push_frame (frame : List UInt8) (keyframe : Bool)
  | capture_consumed (id : UInt32)
  | keyframe_request
  | reconfigure (config : PassthroughConfig)
  | clear

/-- The state after one `push_frame`: a request is made once the flag is set. -/
def QueueRun.push_frame (s : QueueRun) (frame : List UInt8) (keyframe : Bool) : QueueRun :=
  let pushed := VideoPassthrough.push_frame s.shared frame keyframe
  { shared := pushed.shared
    log := .push_frame frame keyframe pushed.result ::
      ((if pushed.requested then [.on_keyframe_request] else []) ++
        .need_keyframe pushed.shared.queue.need_keyframe :: s.log) }

def QueueRun.step (s : QueueRun) : QueueOp → Option QueueRun
  | .push_frame frame keyframe => some (s.push_frame frame keyframe)
  | .capture_consumed id => some { s with shared := capture_consumed s.shared id }
  | .keyframe_request => some { s with log := .on_keyframe_request :: s.log }
  | .reconfigure config => some { s with shared := { s.shared with max_queue := max config.max_queue 1 } }
  | .clear => some {
      shared := (VideoPassthrough.clear s.shared .zero).1
      log := .need_keyframe false :: s.log }

/-- The queue of a passthrough with some configuration. -/
def queues (config : PassthroughConfig) : Machine QueueRun QueueOp where
  start := { shared := .new config, log := [.need_keyframe false] }
  step := QueueRun.step

/-- `on_keyframe_request` was called since `need_keyframe` was last false. -/
def RequestedSince (log : List QueueNotice) : Prop :=
  Since (· = .on_keyframe_request) (· = .need_keyframe false) log

/-- The source has to start again on a keyframe, and was told so. -/
structure QueueRun.Restarts (s : QueueRun) : Prop where
  need_keyframe : s.shared.queue.need_keyframe = true
  requested : RequestedSince s.log

/-- The result of the latest `push_frame` of a frame that was not empty. -/
def last_result : List QueueNotice → Option Bool
  | [] => none
  | .push_frame frame _ result :: past => if frame = [] then last_result past else some result
  | _ :: past => last_result past

/-- Every accepted non-keyframe is the first frame pushed, or directly follows
    one that was accepted too. -/
def Unbroken (log : List QueueNotice) : Prop :=
  Logged (fun e past => ∀ frame, e = .push_frame frame false true → last_result past ≠ some false) log

/-- The condition on a `push_frame`: the frame is no larger than
    `max_frame_size`, unless the queue waits for a keyframe already. -/
def FrameFits (s : QueueRun) : QueueOp → Prop
  | .push_frame frame _ =>
    frame.length ≤ s.shared.max_frame_size ∨ s.shared.queue.need_keyframe = true
  | _ => True

/-- That condition, in a run without `clear`. -/
def FrameFitsNoClear (s : QueueRun) (op : QueueOp) : Prop := FrameFits s op ∧ op ≠ .clear

theorem requestedSince_push_frame {frame : List UInt8} {keyframe result : Bool} {log : List QueueNotice} :
    RequestedSince (.push_frame frame keyframe result :: log) ↔ RequestedSince log := by
  unfold RequestedSince
  simp [since_cons]

theorem requestedSince_request (log : List QueueNotice) :
    RequestedSince (.on_keyframe_request :: log) := by
  unfold RequestedSince
  simp [since_cons]

theorem requestedSince_need {need : Bool} {log : List QueueNotice} :
    RequestedSince (.need_keyframe need :: log) ↔ need = true ∧ RequestedSince log := by
  unfold RequestedSince
  simp [since_cons]

/-- The queue waits for a keyframe only after asking for one. -/
def QueueRun.Asked (s : QueueRun) : Prop :=
  s.shared.queue.need_keyframe = true → RequestedSince s.log

/-- After a `push_frame` the queue waits for a keyframe only after asking for
    one, and a discard restarts the source exactly where the frame fits or the
    queue was waiting before. -/
theorem push_frame_asked {s : QueueRun} (hasked : s.Asked) (frame : List UInt8) (keyframe : Bool) :
    (s.push_frame frame keyframe).Asked ∧
      (frame ≠ [] → (VideoPassthrough.push_frame s.shared frame keyframe).result = false →
        ((s.push_frame frame keyframe).Restarts ↔ FrameFits s (.push_frame frame keyframe))) := by
  have hstep := VideoPassthrough.push_frame_step s.shared frame keyframe
  unfold QueueRun.push_frame
  generalize VideoPassthrough.push_frame s.shared frame keyframe = pushed at hstep
  cases hstep with
  | size hsize =>
    have hkept (hneed : s.shared.queue.need_keyframe = true) : RequestedSince
        (.push_frame frame keyframe false :: .need_keyframe s.shared.queue.need_keyframe :: s.log) := by
      rw [requestedSince_push_frame, requestedSince_need]
      exact ⟨hneed, hasked hneed⟩
    refine ⟨hkept, fun hframe _ => ?_⟩
    have hlarge : ¬ frame.length ≤ s.shared.max_frame_size := by
      have := hsize.resolve_left hframe
      omega
    rw [FrameFits, or_iff_right hlarge]
    exact ⟨fun h => h.need_keyframe, fun hneed => ⟨hneed, hkept hneed⟩⟩
  | waiting hframe hneed =>
    have hkept : RequestedSince (.push_frame frame keyframe false ::
        .need_keyframe s.shared.queue.need_keyframe :: s.log) := by
      rw [requestedSince_push_frame, requestedSince_need]
      exact ⟨hneed, hasked hneed⟩
    exact ⟨fun _ => hkept, fun _ _ => iff_of_true ⟨hneed, hkept⟩ (.inr hneed)⟩
  | flushed hframe =>
    have hrequest : RequestedSince (.push_frame frame keyframe false :: .on_keyframe_request ::
        .need_keyframe true :: s.log) :=
      requestedSince_push_frame.mpr (requestedSince_request _)
    exact ⟨fun _ => hrequest, fun _ _ => iff_of_true ⟨rfl, hrequest⟩ (.inl hframe.2)⟩
  | accepted =>
    refine ⟨fun hneed => absurd hneed ?_, fun _ hresult => absurd hresult ?_⟩
    · simp [Queue.push_back]
    · simp

/-- One case for each operation: a queue that is made to wait has asked for a
    keyframe. -/
theorem asked_step {s t : QueueRun} {op : QueueOp} (hasked : s.Asked) (hstep : s.step op = some t) :
    t.Asked := by
  cases op with
  | push_frame frame keyframe =>
    cases hstep
    exact (push_frame_asked hasked frame keyframe).1
  | capture_consumed id =>
    cases hstep
    exact hasked
  | keyframe_request =>
    cases hstep
    exact fun _ => requestedSince_request _
  | reconfigure config =>
    cases hstep
    exact hasked
  | clear =>
    cases hstep
    intro hneed
    simp [VideoPassthrough.clear] at hneed

/-- In every reachable state, a queue that waits has asked for a keyframe since. -/
theorem queues_asked {config : PassthroughConfig} {ok : QueueRun → QueueOp → Prop} {s : QueueRun}
    (hreach : (queues config).Reach ok s) : s.Asked := by
  refine hreach.invariant (P := QueueRun.Asked) ?_ fun _ _ _ _ _ hstep hasked => asked_step hasked hstep
  intro hneed
  simp [queues, Shared.new] at hneed

/-- Where the frame pushed last was discarded, the queue waits for a keyframe. -/
structure QueueRun.Chained (s : QueueRun) : Prop where
  unbroken : Unbroken s.log
  waits : last_result s.log = some false → s.shared.queue.need_keyframe = true

theorem unbroken_cons {e : QueueNotice} {log : List QueueNotice}
    (he : ∀ frame, e = .push_frame frame false true → last_result log ≠ some false)
    (hlog : Unbroken log) : Unbroken (e :: log) :=
  logged_cons.mpr ⟨he, hlog⟩

/-- A push under the condition accepts a non-keyframe only behind an accepted frame.
    Of a frame that is turned down for its size this would not be true. -/
theorem push_frame_chained {s : QueueRun} (hchained : s.Chained) {frame : List UInt8} {keyframe : Bool}
    (hfits : FrameFits s (.push_frame frame keyframe)) : (s.push_frame frame keyframe).Chained := by
  have hstep := VideoPassthrough.push_frame_step s.shared frame keyframe
  unfold QueueRun.push_frame
  generalize VideoPassthrough.push_frame s.shared frame keyframe = pushed at hstep
  have hneed_log : ∀ need, Unbroken (.need_keyframe need :: s.log) := fun need =>
    unbroken_cons (by simp) hchained.unbroken
  cases hstep with
  | size hsize =>
    refine ⟨unbroken_cons (by simp) (hneed_log _), fun hlast => ?_⟩
    by_cases hframe : frame = []
    · simp only [last_result, hframe, if_true] at hlast
      exact hchained.waits hlast
    · have hlarge := hsize.resolve_left hframe
      exact hfits.resolve_left (by omega)
  | waiting hframe hneed =>
    exact ⟨unbroken_cons (by simp) (hneed_log _), fun _ => hneed⟩
  | flushed =>
    exact ⟨unbroken_cons (by simp) (unbroken_cons (by simp) (hneed_log _)), fun _ => rfl⟩
  | accepted hframe hneed =>
    refine ⟨unbroken_cons ?_ (hneed_log _), fun hlast => ?_⟩
    · intro frame' heq hlast
      simp only [QueueNotice.push_frame.injEq] at heq
      -- A discard left the queue waiting, so what it accepts is a keyframe.
      have hkey := hneed (hchained.waits hlast)
      simp [hkey] at heq
    · simp [last_result, hframe.1] at hlast

/-- So does every other step but `clear`, which pushes nothing. -/
theorem chained_step {s t : QueueRun} {op : QueueOp} (hok : FrameFitsNoClear s op)
    (hchained : s.Chained) (hstep : s.step op = some t) : t.Chained := by
  cases op with
  | push_frame frame keyframe =>
    cases hstep
    exact push_frame_chained hchained hok.1
  | capture_consumed id =>
    cases hstep
    exact ⟨hchained.unbroken, hchained.waits⟩
  | keyframe_request =>
    cases hstep
    exact ⟨unbroken_cons (by simp) hchained.unbroken, hchained.waits⟩
  | reconfigure config =>
    cases hstep
    exact ⟨hchained.unbroken, hchained.waits⟩
  | clear => exact absurd rfl hok.2

/-- A discarded frame restarts the source on a keyframe exactly where it is no
    larger than `max_frame_size` or the queue was waiting for one already. In a run
    of such pushes without `clear`, no accepted non-keyframe follows a frame that
    was discarded. The frames, their flags and the configuration are arbitrary; an
    empty frame is refused before any of this. -/
theorem VideoPassthrough.push_frame_restarts (config : PassthroughConfig) :
    (∀ s, (queues config).Reach (fun _ _ => True) s → ∀ frame keyframe, frame ≠ [] →
      (VideoPassthrough.push_frame s.shared frame keyframe).result = false →
      ((s.push_frame frame keyframe).Restarts ↔ FrameFits s (.push_frame frame keyframe))) ∧
    ∀ s, (queues config).Reach FrameFitsNoClear s → Unbroken s.log := by
  constructor
  · intro s hreach frame keyframe hframe hresult
    exact (push_frame_asked (queues_asked hreach) frame keyframe).2 hframe hresult
  · intro s hreach
    have hchained : s.Chained := by
      refine hreach.invariant (P := QueueRun.Chained) ?_ fun _ _ _ _ hok hstep hchained =>
        chained_step hok hchained hstep
      exact ⟨logged_cons.mpr ⟨by simp, logged_nil⟩, fun hlast => by simp [queues, last_result] at hlast⟩
    exact hchained.unbroken

/-- With room for one frame: a second one is flushed and restarts the source. Both
    pushes meet the condition. -/
theorem VideoPassthrough.push_frame_restarts_overflow :
    ∃ s, (queues { max_queue := 1 }).exec (queues { max_queue := 1 }).start [.push_frame [0] false] = some s ∧
      (s.push_frame [1] false).Restarts ∧ Unbroken s.log := by
  refine ⟨_, rfl, ?_, ?_⟩
  · exact ((VideoPassthrough.push_frame_restarts { max_queue := 1 }).1 _ (Machine.Reach.exec .start
      (Machine.admits_of_forall (fun _ _ => trivial) _ [.push_frame [0] false]) rfl) [1] false
      (by decide) (by decide)).mpr (.inl (by decide))
  · exact (VideoPassthrough.push_frame_restarts { max_queue := 1 }).2 _ (.step
      (a := .push_frame [0] false) .start ⟨.inl (by decide), by simp⟩ rfl)

/-- A frame over `max_frame_size` is discarded without restarting anything. The
    queue goes on with the frames that refer to it. -/
theorem VideoPassthrough.not_push_frame_restarts :
    ¬ ∀ (config : PassthroughConfig) (s : QueueRun), (queues config).Reach (fun _ _ => True) s →
      ∀ frame keyframe, frame ≠ [] →
        (VideoPassthrough.push_frame s.shared frame keyframe).result = false →
        (s.push_frame frame keyframe).Restarts := by
  intro hclaim
  have hrestarts := hclaim { max_frame_size := 1 } _ .start [0, 1] false (by decide) (by decide)
  exact absurd hrestarts.need_keyframe (by decide)

end pjsua_rust.video
