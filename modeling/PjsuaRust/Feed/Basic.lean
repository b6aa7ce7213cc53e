import Mathlib

namespace feeds

/-- A queue whose reader works on a copy of its front. `accepted` is everything
    ever accepted, in order; what stands before `front` has left the queue. The
    copy is of the place `held`. `last` is the place taken last, and `taken` is
    what was taken since a reader started, which is `fresh` until it takes
    something. -/
structure Feed (α : Type) where
  accepted : List α := []
  front : Nat := 0
  held : Option Nat := none
  last : Option Nat := none
  fresh : Bool := true
  taken : List α := []

namespace Feed

variable {α : Type}

/-- Accept an element behind those from `front` on. -/
def accept (f : Feed α) (x : α) (front : Nat) : Feed α :=
  { f with accepted := f.accepted ++ [x], front }

/-- Drop what stands before `front`. -/
def drop (f : Feed α) (front : Nat) : Feed α :=
  { f with front }

/-- Copy the front, without removing it. -/
def peek (f : Feed α) : Feed α :=
  { f with held := if f.front < f.accepted.length then some f.front else none }

/-- Take the copy, an element `x` of the place `h`: everything up to it leaves
    the queue. -/
def take (f : Feed α) (h : Nat) (x : α) : Feed α :=
  { f with front := max f.front (h + 1), last := some h, fresh := false, taken := f.taken ++ [x] }

/-- A new reader starts. -/
def restart (f : Feed α) : Feed α :=
  { f with fresh := true, taken := [] }

/-- The copy is not newer than the front and not older than what was taken
    last, and what was taken is in order. -/
structure Inv (f : Feed α) : Prop where
  front : f.front ≤ f.accepted.length
  held : ∀ h ∈ f.held, h < f.accepted.length ∧ h ≤ f.front
  last : ∀ t ∈ f.last, t < f.front ∧ ∀ h ∈ f.held, t ≤ h
  taken : ∀ t ∈ f.last, f.taken.Sublist (f.accepted.take (t + 1))
  untaken : f.last = none → f.taken = []
  fresh : f.fresh = true → f.taken = []

variable {f : Feed α}

/-- Nothing is held, taken or queued at the start. -/
theorem Inv.empty : Inv ({} : Feed α) where
  front := Nat.le_refl _
  held := by simp
  last := by simp
  taken := by simp
  untaken _ := rfl
  fresh _ := rfl

/-- An element is accepted at the end, and more of the front may be given up for it.
    What was taken stays taken, and a copy of what is given up becomes a stale one. -/
theorem Inv.accept (hinv : f.Inv) (x : α) {front : Nat} (hle : f.front ≤ front)
    (hfront : front ≤ f.accepted.length) : (f.accept x front).Inv where
  front := by
    simp only [Feed.accept, List.length_append, List.length_singleton]
    omega
  held h hh := by
    have := hinv.held h hh
    simp only [Feed.accept, List.length_append, List.length_singleton]
    omega
  last t ht := by
    obtain ⟨hlt, hheld⟩ := hinv.last t ht
    exact ⟨Nat.lt_of_lt_of_le hlt hle, hheld⟩
  taken t ht := by
    obtain ⟨hlt, -⟩ := hinv.last t ht
    have := hinv.front
    simp only [Feed.accept]
    rw [List.take_append_of_le_length (by omega)]
    exact hinv.taken t ht
  untaken := hinv.untaken
  fresh := hinv.fresh

/-- Giving up more of the front does not touch the copy, which may then be stale. It
    is still told from what is queued by its place. -/
theorem Inv.drop (hinv : f.Inv) {front : Nat} (hle : f.front ≤ front)
    (hfront : front ≤ f.accepted.length) : (f.drop front).Inv where
  front := hfront
  held h hh := by
    obtain ⟨hlt, hh⟩ := hinv.held h hh
    exact ⟨hlt, Nat.le_trans hh hle⟩
  last t ht := by
    obtain ⟨hlt, hheld⟩ := hinv.last t ht
    exact ⟨Nat.lt_of_lt_of_le hlt hle, hheld⟩
  taken := hinv.taken
  untaken := hinv.untaken
  fresh := hinv.fresh

theorem peek_held {h : Nat} (hh : h ∈ f.peek.held) : h = f.front ∧ h < f.accepted.length := by
  simp only [peek, Option.mem_def] at hh
  split at hh
  · cases hh
    exact ⟨rfl, ‹_›⟩
  · cases hh

/-- A new copy is one of the front. The copy that was held before is forgotten,
    stale or not. -/
theorem Inv.peek (hinv : f.Inv) : f.peek.Inv where
  front := hinv.front
  held h hh := by
    obtain ⟨rfl, hlt⟩ := peek_held hh
    exact ⟨hlt, Nat.le_refl _⟩
  last t ht := by
    obtain ⟨hlt, -⟩ := hinv.last t ht
    refine ⟨hlt, fun h hh => ?_⟩
    obtain ⟨rfl, -⟩ := peek_held hh
    exact Nat.le_of_lt hlt
  taken := hinv.taken
  untaken := hinv.untaken
  fresh := hinv.fresh

/-- Taking the copy, fresh or stale, takes what is behind everything taken before:
    the copy is not older than what was taken last, and not the same unless a reader
    has just started. -/
theorem Inv.take (hinv : f.Inv) {h : Nat} {x : α} (hheld : f.held = some h)
    (hx : f.accepted[h]? = some x) (hnew : f.fresh = true ∨ f.last ≠ some h) : (f.take h x).Inv := by
  obtain ⟨hlt, hfront⟩ := hinv.held h hheld
  have htaken : f.taken.Sublist (f.accepted.take h) := by
    cases hlast : f.last with
    | none =>
      rw [hinv.untaken hlast]
      exact List.nil_sublist _
    | some t =>
      rcases hnew with hfresh | hne
      · rw [hinv.fresh hfresh]
        exact List.nil_sublist _
      · -- What was taken last stands before the copy.
        have hle := (hinv.last t hlast).2 h hheld
        have hlt' : t + 1 ≤ h := by
          rw [hlast, Ne, Option.some.injEq] at hne
          omega
        exact (hinv.taken t hlast).trans (List.take_sublist_take_left hlt')
  refine ⟨?_, ?_, ?_, ?_, ?_, ?_⟩
  · have := hinv.front
    exact Nat.max_le.mpr ⟨this, hlt⟩
  · intro h' hh'
    obtain ⟨hlt', hfront'⟩ := hinv.held h' hh'
    exact ⟨hlt', Nat.le_trans hfront' (Nat.le_max_left _ _)⟩
  · intro t ht
    cases ht
    refine ⟨Nat.lt_of_lt_of_le (Nat.lt_succ_self _) (Nat.le_max_right _ _), ?_⟩
    intro h' hh'
    cases Option.mem_unique hheld hh'
    exact Nat.le_refl _
  · intro t ht
    cases ht
    simp only [Feed.take]
    rw [List.take_add_one, hx]
    exact htaken.append (List.Sublist.refl _)
  · intro hlast
    cases hlast
  · intro hfresh
    cases hfresh

/-- A new reader has taken nothing yet. -/
theorem Inv.restart (hinv : f.Inv) : f.restart.Inv where
  front := hinv.front
  held := hinv.held
  last := hinv.last
  taken _ _ := List.nil_sublist _
  untaken _ := rfl
  fresh _ := rfl

/-- The reader takes elements in order, each at most once. -/
theorem Inv.taken_sublist (hinv : f.Inv) : f.taken.Sublist f.accepted := by
  cases hlast : f.last with
  | none =>
    rw [hinv.untaken hlast]
    exact List.nil_sublist _
  | some t => exact (hinv.taken t hlast).trans (List.take_sublist _ _)

/-- Taking the copy removes the front exactly where the copy is of the front,
    and nothing otherwise. -/
theorem Inv.front_take (hinv : f.Inv) {h : Nat} {x : α} (hheld : f.held = some h) :
    (f.take h x).front = if h = f.front then f.front + 1 else f.front := by
  have := (hinv.held h hheld).2
  simp only [Feed.take]
  split <;> omega

end Feed

end feeds
