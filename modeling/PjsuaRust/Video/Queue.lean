import PjsuaRust.Serial.UInt32

namespace pjsua_rust.video

/-- One access unit waiting to be sent. -/
structure Queued where
  id : UInt32
  data : List UInt8
  keyframe : Bool
deriving DecidableEq, Repr

structure Queue where
  frames : List Queued
  next_id : UInt32
  need_keyframe : Bool
deriving DecidableEq, Repr

/-- Drop frames up to and including `id`: from the front, for as long as the
    signed wrapping distance from the frame to `id` is not negative. -/
def Queue.consume_through (self : Queue) (id : UInt32) : Queue :=
  { self with frames := self.frames.dropWhile fun f => 0 ≤ (id - f.id).toInt32 }

/-- Frames are dropped from the front only. -/
theorem Queue.consume_through_suffix (q : Queue) (id : UInt32) :
    (q.consume_through id).frames <:+ q.frames :=
  List.dropWhile_suffix _

/-- Where the front frame is newer than `id`, nothing is dropped. Only the front is
    compared. -/
theorem Queue.consume_through_of_newer {q : Queue} {id : UInt32}
    (hfront : ∀ f ∈ q.frames.head?, ¬ 0 ≤ (id - f.id).toInt32) : q.consume_through id = q := by
  obtain ⟨frames, next_id, need_keyframe⟩ := q
  cases frames with
  | nil => rfl
  | cons f rest =>
    have hf : ¬ 0 ≤ (id - f.id).toInt32 := hfront f rfl
    simp only [Queue.consume_through, List.dropWhile_cons, hf, decide_false, Bool.false_eq_true,
      if_false]

/-- Where `id` is the front frame's own and the next frame is newer, just the
    front frame is dropped. -/
theorem Queue.consume_through_front {q : Queue} {f : Queued} {rest : List Queued}
    (hframes : q.frames = f :: rest)
    (hnext : ∀ g ∈ rest.head?, ¬ 0 ≤ (f.id - g.id).toInt32) :
    q.consume_through f.id = { q with frames := rest } := by
  obtain ⟨frames, next_id, need_keyframe⟩ := q
  subst hframes
  have hself := serial.zero_le_self_sub_toInt32 f.id
  have hrest := Queue.consume_through_of_newer (q := ⟨rest, next_id, need_keyframe⟩) hnext
  simp only [Queue.consume_through, Queue.mk.injEq] at hrest ⊢
  simpa only [List.dropWhile_cons, hself, decide_true, if_true, and_true] using hrest.1

/-- `iter().rposition(p)`: the place of the last element that satisfies `p`. -/
def rposition {α : Type} (p : α → Bool) : List α → Option Nat
  | [] => none
  | x :: xs =>
    match rposition p xs with
    | some i => some (i + 1)
    | none => if p x then some 0 else none

theorem rposition_eq_some {α : Type} {p : α → Bool} {l : List α} {i : Nat}
    (h : rposition p l = some i) : ∃ x rest, l.drop i = x :: rest ∧ p x = true := by
  induction l generalizing i with
  | nil => cases h
  | cons y ys ih =>
    rw [rposition] at h
    cases hrest : rposition p ys with
    | some j =>
      rw [hrest] at h
      cases h
      exact ih hrest
    | none =>
      rw [hrest] at h
      by_cases hy : p y = true
      · simp only [hy, if_true, Option.some.injEq] at h
        subst h
        exact ⟨y, ys, rfl, hy⟩
      · simp [hy] at h

end pjsua_rust.video
