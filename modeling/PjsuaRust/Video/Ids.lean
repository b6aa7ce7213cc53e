import PjsuaRust.Video.Bound

open transition

namespace pjsua_rust.video

/-- A queue in use, with the ids `push_frame` has given out so far, oldest
    first. -/
structure Numbered where
  run : QueueRun
  issued : List UInt32

/-- The id one operation gives out, if it is a `push_frame` that is accepted. -/
def QueueRun.issues (s : QueueRun) : QueueOp → List UInt32
  | .push_frame frame keyframe =>
    if (VideoPassthrough.push_frame s.shared frame keyframe).result then [s.shared.queue.next_id] else []
  | _ => []

def Numbered.step (s : Numbered) (op : QueueOp) : Option Numbered :=
  (s.run.step op).map fun run => { run, issued := s.issued ++ s.run.issues op }

/-- The queue of a passthrough with some configuration, from any `next_id`. -/
def numbered (config : PassthroughConfig) (next_id : UInt32) : Machine Numbered QueueOp where
  start :=
    { run := { shared := { Shared.new config with queue := { frames := [], next_id, need_keyframe := false } }
               log := [.need_keyframe false] }
      issued := [] }
  step := Numbered.step

def Queue.ids (q : Queue) : List UInt32 := q.frames.map (·.id)

/-- The ids given out are numbered from the `first`-th on, and those in the queue
    are the last of them. -/
structure Numbered.Inv (first : Nat) (s : Numbered) : Prop where
  issued : s.issued = serial.u32_range first s.issued.length
  next_id : s.run.shared.queue.next_id = serial.u32 (first + s.issued.length)
  queued : s.run.shared.queue.ids <:+ s.issued

/-- A `push_frame` that is not accepted gives out no id and queues nothing. What it
    leaves of the queue are the last ids still. -/
theorem Numbered.Inv.shrunk {first : Nat} {s : Numbered} (hs : s.Inv first) {run : QueueRun}
    (hnext : run.shared.queue.next_id = s.run.shared.queue.next_id)
    (hframes : run.shared.queue.frames <:+ s.run.shared.queue.frames) :
    Numbered.Inv first { run, issued := s.issued ++ [] } := by
  rw [List.append_nil]
  exact ⟨hs.issued, hnext.trans hs.next_id, (hframes.map _).trans hs.queued⟩

/-- An accepted frame gets the number after the last one; a refused one uses no
    number. -/
theorem Numbered.Inv.push_frame {first : Nat} {s : Numbered} (hs : s.Inv first) (frame : List UInt8)
    (keyframe : Bool) :
    Numbered.Inv first
      { run := s.run.push_frame frame keyframe, issued := s.issued ++ s.run.issues (.push_frame frame keyframe) } := by
  have hpush := VideoPassthrough.push_frame_step s.run.shared frame keyframe
  simp only [QueueRun.push_frame, QueueRun.issues]
  generalize VideoPassthrough.push_frame s.run.shared frame keyframe = pushed at hpush
  cases hpush with
  | size => exact hs.shrunk rfl (List.suffix_refl _)
  | waiting => exact hs.shrunk rfl (List.suffix_refl _)
  | flushed => exact hs.shrunk rfl List.nil_suffix
  | accepted _ _ kept hkept =>
    have hkept' : kept.map (·.id) <:+ s.issued := (hkept.suffix.map _).trans hs.queued
    refine ⟨?_, ?_, ?_⟩
    all_goals simp only [if_true]
    · rw [List.length_append, List.length_singleton, serial.u32_range_succ, ← hs.issued, ← hs.next_id]
    · rw [List.length_append, List.length_singleton, ← Nat.add_assoc, ← serial.max_u32_succ, ← hs.next_id]
      rfl
    · obtain ⟨older, holder⟩ := hkept'
      refine ⟨older, ?_⟩
      rw [← holder, List.append_assoc]
      simp only [Queue.ids, Queue.push_back, List.map_append, List.map_singleton]

/-- In every reachable state the ids given out are a range of the numbering,
    wherever it wraps, and the queued ones are the last of them. -/
theorem Numbered.Inv.of_reach {config : PassthroughConfig} {next_id : UInt32} {first : Nat}
    (hfirst : serial.u32 first = next_id) {s : Numbered}
    (hreach : (numbered config next_id).Reach (fun _ _ => True) s) : s.Inv first := by
  have hstart : Numbered.Inv first (numbered config next_id).start := ⟨rfl, hfirst.symm, List.nil_suffix⟩
  refine hreach.invariant hstart ?_
  intro s op t _ _ hstep hs
  cases op with
  | push_frame frame keyframe =>
    cases hstep
    exact hs.push_frame frame keyframe
  | capture_consumed id =>
    cases hstep
    exact hs.shrunk rfl (s.run.shared.queue.consume_through_suffix id)
  | keyframe_request =>
    cases hstep
    exact hs.shrunk rfl (List.suffix_refl _)
  | reconfigure config =>
    cases hstep
    exact hs.shrunk rfl (List.suffix_refl _)
  | clear =>
    cases hstep
    exact hs.shrunk rfl List.nil_suffix

/-- The front of the queue up to and including a frame goes where all of it is at
    or before the id, and what follows is newer. -/
theorem Queue.consume_through_split {q : Queue} {id : UInt32} (before : List Queued) {after : List Queued}
    (hframes : q.frames = before ++ after) (hbefore : ∀ f ∈ before, 0 ≤ (id - f.id).toInt32)
    (hafter : ∀ f ∈ after.head?, ¬ 0 ≤ (id - f.id).toInt32) : (q.consume_through id).frames = after := by
  have hkeep := Queue.consume_through_of_newer (q := { q with frames := after }) hafter
  have hdrop : ∀ f ∈ before, decide (0 ≤ (id - f.id).toInt32) = true := fun f hf => decide_eq_true (hbefore f hf)
  have hframes' := congrArg Queue.frames hkeep
  simp only [Queue.consume_through] at hframes' ⊢
  rw [hframes, List.dropWhile_append_of_pos hdrop, hframes']

/-- What consuming by an id has to do in a queue whose frames' ids, and those of
    the frames before them, are `issued`. -/
structure ConsumesExactly (q : Queue) (issued : List UInt32) : Prop where
  nonzero : ∀ id ∈ q.ids, id ≠ 0
  distinct : q.ids.Nodup
  consecutive : (q.ids ++ [q.next_id]).IsChain fun a b => b = max (a + 1) 1
  last_issued : q.ids <:+ issued
  queued : ∀ before f after, q.frames = before ++ f :: after → (q.consume_through f.id).frames = after
  stale : ∀ old id between, issued = old ++ id :: between ++ q.ids → between.length + 1 ≤ 2 ^ 31 - 1 →
    q.consume_through id = q

/-- The ids in the queue are numbered from the `n`-th on, up to `next_id`. -/
structure Queue.Counted (n : Nat) (q : Queue) : Prop where
  ids : q.ids = serial.u32_range n q.frames.length
  next_id : q.next_id = serial.u32 (n + q.frames.length)

/-- A queue of the last of the ids given out. Counting starts at the id of its
    front, which is as many places from the end as there are frames. -/
theorem Queue.counted_of_suffix {q : Queue} {issued : List UInt32} {first : Nat}
    (hissued : issued = serial.u32_range first issued.length)
    (hnext : q.next_id = serial.u32 (first + issued.length)) (hqueued : q.ids <:+ issued) :
    q.Counted (first + (issued.length - q.frames.length)) := by
  have hlength : q.ids.length = q.frames.length := List.length_map _
  have hle := hqueued.length_le
  rw [hissued] at hqueued
  have hids := serial.eq_u32_range_of_suffix hqueued
  rw [hlength] at hids
  refine ⟨hids, ?_⟩
  rw [hnext]
  congr 1
  omega

/-- In a queue numbered from `n` on, the place of a frame tells its id. -/
theorem Queue.Counted.id_at {n : Nat} {q : Queue} (hq : q.Counted n) {i : Nat} {f : Queued}
    (hf : q.frames[i]? = some f) : f.id = serial.u32 (n + i) := by
  obtain ⟨hi, -⟩ := List.getElem?_eq_some_iff.mp hf
  have hmap : q.ids[i]? = some f.id := by rw [Queue.ids, List.getElem?_map, hf, Option.map_some]
  rw [hq.ids, List.getElem?_eq_getElem (by simpa using hi), serial.getElem_u32_range] at hmap
  exact (Option.some.inj hmap).symm

/-- Consuming by the id of a frame in the queue takes it and those before it. The
    queue is shorter than half the ids, so that no frame behind it compares as
    older. -/
theorem Queue.Counted.consume_queued {n : Nat} {q : Queue} (hq : q.Counted n) (hshort : q.frames.length < 2 ^ 31 - 1)
    {before after : List Queued} {f : Queued} (hframes : q.frames = before ++ f :: after) :
    (q.consume_through f.id).frames = after := by
  have hf : f.id = serial.u32 (n + before.length) := hq.id_at (by rw [hframes]; simp)
  have hlen := congrArg List.length hframes
  rw [List.length_append, List.length_cons] at hlen
  apply Queue.consume_through_split (before ++ [f]) (by rw [hframes]; simp)
  · intro g hg
    obtain ⟨i, hi, hget⟩ := List.getElem_of_mem hg
    have hat : q.frames[i]? = some g := by
      rw [hframes, ← List.singleton_append, ← List.append_assoc, List.getElem?_append_left hi,
        List.getElem?_eq_getElem hi, hget]
    rw [List.length_append, List.length_singleton] at hi
    rw [hf, hq.id_at hat, show n + before.length = n + i + (before.length - i) by omega]
    exact serial.zero_le_u32_sub _ (by omega)
  · intro g hg
    have hat : q.frames[before.length + 1]? = some g := by
      rw [hframes, List.getElem?_append_right (by omega), Nat.add_sub_cancel_left, List.getElem?_cons_succ,
        ← List.head?_eq_getElem?]
      exact hg
    rw [hf, hq.id_at hat, ← Nat.add_assoc]
    exact serial.not_zero_le_u32_sub _ (by decide) (by decide)

/-- Consuming by an id that is not far before those in the queue takes nothing. -/
theorem Queue.Counted.consume_stale {m k : Nat} {q : Queue} (hq : q.Counted (m + k)) (hpos : 0 < k)
    (hnear : k ≤ 2 ^ 31 - 1) : q.consume_through (serial.u32 m) = q := by
  apply Queue.consume_through_of_newer
  intro f hf
  rw [List.head?_eq_getElem?] at hf
  rw [hq.id_at hf, Nat.add_zero]
  exact serial.not_zero_le_u32_sub _ hpos (by omega)

/-- In a queue of fewer than half a cycle, an id that was given out is compared in
    the order of the pushes, so that consuming by it drops just the frames up to its
    own. -/
theorem Queue.consumes_exactly {q : Queue} {issued : List UInt32} {first : Nat}
    (hissued : issued = serial.u32_range first issued.length)
    (hnext : q.next_id = serial.u32 (first + issued.length)) (hqueued : q.ids <:+ issued)
    (hshort : q.frames.length < 2 ^ 31 - 1) : ConsumesExactly q issued := by
  have hq := Queue.counted_of_suffix hissued hnext hqueued
  refine ⟨?_, ?_, ?_, hqueued, fun before f after hframes => hq.consume_queued hshort hframes, ?_⟩
  · intro id hmem
    rw [hq.ids, serial.u32_range, List.mem_map] at hmem
    obtain ⟨i, -, rfl⟩ := hmem
    exact serial.u32_ne_zero i
  · rw [hq.ids]
    exact serial.nodup_u32_range (by omega)
  · rw [hq.ids, hq.next_id, ← serial.u32_range_succ]
    exact serial.isChain_u32_range _ _
  · intro old id between hsplit hnear
    have hlength : q.ids.length = q.frames.length := List.length_map _
    have hlen := congrArg List.length hsplit
    rw [List.length_append, List.length_append, List.length_cons, hlength] at hlen
    have hold : id = serial.u32 (first + old.length) := by
      have hat : issued[old.length]? = some id := by rw [hsplit]; simp
      rw [hissued, List.getElem?_eq_getElem (by simp; omega), serial.getElem_u32_range] at hat
      exact (Option.some.inj hat).symm
    rw [show first + (issued.length - q.frames.length) = first + old.length + (between.length + 1) by omega] at hq
    rw [hold]
    exact hq.consume_stale (Nat.succ_pos _) hnear

/-- In every queue of fewer than `2 ^ 31 - 1` frames the ids are the last ones given
    out, in their order and wherever they wrap, and consuming by an id drops the
    frames up to its own, or nothing if its frame has gone. The numbering may start
    at any id but 0, which none is ever given; the run before is arbitrary. -/
theorem consume_through_exact (config : PassthroughConfig) {next_id : UInt32} (hnext : next_id ≠ 0) {s : Numbered}
    (hreach : (numbered config next_id).Reach (fun _ _ => True) s)
    (hshort : s.run.shared.queue.frames.length < 2 ^ 31 - 1) :
    ConsumesExactly s.run.shared.queue s.issued := by
  have hs := Numbered.Inv.of_reach (serial.u32_pred hnext) hreach
  exact Queue.consumes_exactly hs.issued hs.next_id hs.queued hshort

/-- Three keyframes across the end of the numbers, the first of them consumed. The
    number 0 is left out. -/
theorem consume_through_exact_wrapped :
    ∃ s, (numbered {} 0xffffffff).Reach (fun _ _ => True) s ∧ s.issued = [0xffffffff, 1, 2] ∧
      s.run.shared.queue.ids = [1, 2] ∧ ConsumesExactly s.run.shared.queue s.issued := by
  have hstart : (numbered {} 0xffffffff).Reach (fun _ _ => True) (numbered {} 0xffffffff).start := .start
  have hfirst := hstart.step (a := .push_frame [1] true) trivial rfl
  have hsecond := hfirst.step (a := .push_frame [2] true) trivial rfl
  have hpushed := hsecond.step (a := .push_frame [3] true) trivial rfl
  have hconsumed := hpushed.step (a := .capture_consumed 0xffffffff) trivial rfl
  exact ⟨_, hconsumed, by decide, by decide, consume_through_exact {} (by decide) hconsumed (by decide)⟩

end pjsua_rust.video
