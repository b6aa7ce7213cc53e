import PjsuaRust.Video.Queue

namespace pjsua_rust.video

/-- What the callbacks and the application's handle share. The handler itself
    is the application's; calls made to it are part of what a function returns. -/
structure Shared where
  queue : Queue
  max_queue : Nat
  max_frame_size : Nat
deriving DecidableEq, Repr

/-- What one `push_frame` leaves: the shared state, the value returned, and
    whether it called `on_keyframe_request`. -/
structure Pushed where
  shared : Shared
  result : Bool
  requested : Bool
deriving DecidableEq, Repr

/-- The end of `push_frame`: give the frame the next id and queue it. -/
def Queue.push_back (q : Queue) (frame : List UInt8) (keyframe : Bool) : Queue :=
  { q with
    frames := q.frames ++ [{ id := q.next_id, data := frame, keyframe }]
    next_id := max (q.next_id + 1) 1 }

def VideoPassthrough.push_frame (self : Shared) (frame : List UInt8) (keyframe : Bool) : Pushed :=
  if frame.isEmpty || self.max_frame_size < frame.length then
    { shared := self, result := false, requested := false }
  else if self.queue.need_keyframe && !keyframe then
    { shared := self, result := false, requested := false }
  else
    let q := { self.queue with need_keyframe := false }
    let accept (q : Queue) : Pushed :=
      { shared := { self with queue := q.push_back frame keyframe }, result := true, requested := false }
    -- Drop everything queued, and ask for a keyframe unless this is one.
    let flush : Pushed :=
      let q := { q with frames := [], need_keyframe := !keyframe }
      if !keyframe then
        { shared := { self with queue := q }, result := false, requested := true }
      else accept q
    if self.max_queue ≤ q.frames.length then
      match rposition (·.keyframe) q.frames with
      | some i => if 0 < i ∧ keyframe = false then accept { q with frames := q.frames.drop i } else flush
      | none => flush
    else accept q

/-- The queued frames an accepted frame is put behind: all of them while there
    is room, those from the newest keyframe on, or none. -/
inductive Kept (self : Shared) (keyframe : Bool) : List Queued → Prop where
  | room (hroom : self.queue.frames.length < self.max_queue) :
      Kept self keyframe self.queue.frames
  | newest_key (hfull : self.max_queue ≤ self.queue.frames.length) (i : Nat)
      (hkey : rposition (·.keyframe) self.queue.frames = some i) (hpos : 0 < i)
      (hplain : keyframe = false) : Kept self keyframe (self.queue.frames.drop i)
  | none (hfull : self.max_queue ≤ self.queue.frames.length) (hkeyframe : keyframe = true) :
      Kept self keyframe []

/-- Everything one `push_frame` can do. -/
inductive PushStep (self : Shared) (frame : List UInt8) (keyframe : Bool) : Pushed → Prop where
  | size (hsize : frame = [] ∨ self.max_frame_size < frame.length) :
      PushStep self frame keyframe { shared := self, result := false, requested := false }
  | waiting (hframe : frame ≠ [] ∧ frame.length ≤ self.max_frame_size)
      (hneed : self.queue.need_keyframe = true) (hplain : keyframe = false) :
      PushStep self frame keyframe { shared := self, result := false, requested := false }
  | flushed (hframe : frame ≠ [] ∧ frame.length ≤ self.max_frame_size)
      (hneed : self.queue.need_keyframe = false) (hplain : keyframe = false)
      (hfull : self.max_queue ≤ self.queue.frames.length) :
      PushStep self frame keyframe
        { shared := { self with queue := { self.queue with frames := [], need_keyframe := true } }
          result := false, requested := true }
  | accepted (hframe : frame ≠ [] ∧ frame.length ≤ self.max_frame_size)
      (hneed : self.queue.need_keyframe = true → keyframe = true)
      (kept : List Queued) (hkept : Kept self keyframe kept) :
      PushStep self frame keyframe
        { shared := { self with
            queue := Queue.push_back { self.queue with frames := kept, need_keyframe := false } frame keyframe }
          result := true, requested := false }

/-- The inversion of `push_frame`: its branches, with the guard of each. -/
theorem VideoPassthrough.push_frame_step (self : Shared) (frame : List UInt8) (keyframe : Bool) :
    PushStep self frame keyframe (VideoPassthrough.push_frame self frame keyframe) := by
  unfold VideoPassthrough.push_frame
  by_cases hsize : (frame.isEmpty || decide (self.max_frame_size < frame.length)) = true
  · rw [if_pos hsize]
    exact .size (by simpa using hsize)
  · rw [if_neg hsize]
    have hframe : frame ≠ [] ∧ frame.length ≤ self.max_frame_size := by simpa using hsize
    by_cases hwait : (self.queue.need_keyframe && !keyframe) = true
    · rw [if_pos hwait]
      have hboth : self.queue.need_keyframe = true ∧ keyframe = false := by simpa using hwait
      exact .waiting hframe hboth.1 hboth.2
    · rw [if_neg hwait]
      have hneed : self.queue.need_keyframe = true → keyframe = true := by simpa using hwait
      dsimp only
      by_cases hfull : self.max_queue ≤ self.queue.frames.length
      · rw [if_pos hfull]
        cases keyframe with
        | true =>
          split <;> simpa using .accepted hframe hneed [] (.none hfull rfl)
        | false =>
          have hclear : self.queue.need_keyframe = false := by simpa using hneed
          split
          · rename_i i hkey
            by_cases hpos : 0 < i
            · simpa [hpos] using PushStep.accepted hframe hneed _ (.newest_key hfull i hkey hpos rfl)
            · simpa [hpos] using PushStep.flushed hframe hclear rfl hfull
          · simpa using PushStep.flushed hframe hclear rfl hfull
      · rw [if_neg hfull]
        exact .accepted hframe hneed _ (.room (by omega))

/-- What is kept is a tail of what was queued. -/
theorem Kept.suffix {self : Shared} {keyframe : Bool} {kept : List Queued}
    (hkept : Kept self keyframe kept) : kept <:+ self.queue.frames := by
  cases hkept with
  | room => exact List.suffix_refl _
  | newest_key _ i => exact List.drop_suffix i _
  | none => exact List.nil_suffix

/-- Whatever is left in the queue after an overflow starts with a keyframe, so that
    a codec can go on with it. -/
theorem Kept.head_key {self : Shared} {keyframe : Bool} {kept : List Queued}
    (hkept : Kept self keyframe kept) (hfull : self.max_queue ≤ self.queue.frames.length) :
    ∀ f ∈ kept.head?, f.keyframe = true := by
  cases hkept with
  | room hroom => omega
  | newest_key _ i hkey =>
    obtain ⟨x, rest, hdrop, hx⟩ := rposition_eq_some hkey
    intro f hf
    rw [hdrop] at hf
    cases hf
    exact hx
  | none => simp

/-- An overflow leaves nothing in the queue only for a keyframe. -/
theorem Kept.keyframe_of_nil {self : Shared} {keyframe : Bool} (hkept : Kept self keyframe [])
    (hfull : self.max_queue ≤ self.queue.frames.length) : keyframe = true := by
  generalize hnil : ([] : List Queued) = kept at hkept
  cases hkept with
  | room hroom => omega
  | newest_key _ i hkey =>
    obtain ⟨x, rest, hdrop, -⟩ := rposition_eq_some hkey
    rw [hdrop] at hnil
    cases hnil
  | none _ hkeyframe => exact hkeyframe

end pjsua_rust.video
