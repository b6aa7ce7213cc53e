import PjsuaRust.Video.PushFrame
import PjsuaRust.Passthrough.State

open pjsua_rust.video_passthrough

namespace pjsua_rust.video

/-- `capture_peek`: the front frame, whose bytes, flag and id go to C, unless
    nothing is queued or it does not fit. `slot` is what `SHARED` holds. -/
def capture_peek (slot : Option Shared) (buf_size : Nat) : Option Queued :=
  match slot with
  | none => none
  | some shared =>
    match shared.queue.frames with
    | [] => none
    | front :: _ => if buf_size < front.data.length then none else some front

/-- `capture_consumed`: the state of the installed passthrough afterwards. -/
def capture_consumed (shared : Shared) (id : UInt32) : Shared :=
  { shared with queue := shared.queue.consume_through id }

/-- `VideoPassthrough::clear`. The queue is locked until it returns, so the
    restart is signalled before anything else can be queued. -/
def VideoPassthrough.clear (self : Shared) (vpt : vpt_state) : Shared × vpt_state :=
  ({ self with queue := { self.queue with frames := [], need_keyframe := false } },
    pjrs_vpt_source_restarted vpt)

/-- A front that fits the buffer is copied whole. -/
theorem capture_peek_of_fits {shared : Shared} {front : Queued} {rest : List Queued}
    {buf_size : Nat} (hframes : shared.queue.frames = front :: rest)
    (hfits : front.data.length ≤ buf_size) : capture_peek (some shared) buf_size = some front := by
  simp only [capture_peek, hframes]
  rw [if_neg (Nat.not_lt.mpr hfits)]

/-- What is copied is the front, and fits. -/
theorem capture_peek_eq_some {shared : Shared} {buf_size : Nat} {front : Queued}
    (hpeek : capture_peek (some shared) buf_size = some front) :
    shared.queue.frames.head? = some front ∧ front.data.length ≤ buf_size := by
  simp only [capture_peek] at hpeek
  cases hframes : shared.queue.frames with
  | nil =>
    rw [hframes] at hpeek
    cases hpeek
  | cons f rest =>
    rw [hframes] at hpeek
    dsimp only at hpeek
    split at hpeek
    · cases hpeek
    · cases hpeek
      exact ⟨rfl, by omega⟩

end pjsua_rust.video
