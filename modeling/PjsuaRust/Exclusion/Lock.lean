import PjsuaRust.Transition.Machine

open transition

namespace exclusion

/-- A flag that is tested and set in one step, with the parties that hold it. -/
structure Lock (ι : Type) where
  taken : Bool
  holds : ι → Bool

inductive Move (ι : Type) where
  | take (i : ι)
  | give (i : ι)

variable {ι : Type} [DecidableEq ι]

/-- The flag can be taken by anyone while it is clear, and given back by anyone
    who holds it. -/
def Lock.step (l : Lock ι) : Move ι → Option (Lock ι)
  | .take i => if l.taken then none else some { taken := true, holds := Function.update l.holds i true }
  | .give i => if l.holds i then some { taken := false, holds := Function.update l.holds i false } else none

def lock : Machine (Lock ι) (Move ι) where
  start := { taken := false, holds := fun _ => false }
  step := Lock.step

/-- At most one party holds the flag, and it is set while one does. -/
structure Lock.Exclusive (l : Lock ι) : Prop where
  one : ∀ i j, l.holds i = true → l.holds j = true → i = j
  taken : l.taken = true ↔ ∃ i, l.holds i = true

/-- A free lock is held by nobody, so taking it makes one holder. -/
theorem Lock.Exclusive.take {l : Lock ι} (hl : l.Exclusive) (hfree : l.taken = false) (i : ι) :
    Lock.Exclusive { taken := true, holds := Function.update l.holds i true } := by
  have hnone : ∀ j, l.holds j = false := fun j => by
    by_contra hj
    have htaken := hl.taken.mpr ⟨j, Bool.eq_true_of_not_eq_false hj⟩
    rw [hfree] at htaken
    cases htaken
  have honly : ∀ j, Function.update l.holds i true j = true → j = i := fun j hj => by
    by_contra hne
    rw [Function.update_of_ne hne, hnone j] at hj
    cases hj
  exact ⟨fun j k hj hk => (honly j hj).trans (honly k hk).symm,
    fun _ => ⟨i, Function.update_self i true l.holds⟩, fun _ => rfl⟩

/-- The one holder gives it back. -/
theorem Lock.Exclusive.give {l : Lock ι} (hl : l.Exclusive) {i : ι} (hi : l.holds i = true) :
    Lock.Exclusive { taken := false, holds := Function.update l.holds i false } := by
  have hnone : ∀ j, Function.update l.holds i false j ≠ true := fun j hj => by
    by_cases hne : j = i
    · subst hne
      rw [Function.update_self] at hj
      cases hj
    · rw [Function.update_of_ne hne] at hj
      exact hne (hl.one j i hj hi)
  refine ⟨fun j _ hj => absurd hj (hnone j), fun h => ?_, ?_⟩
  · cases h
  · rintro ⟨j, hj⟩
    exact absurd hj (hnone j)

/-- However the takes and gives interleave, no two hold the lock at once, and it is
    marked as taken exactly while one does. -/
theorem exclusive_of_reach {ok : Lock ι → Move ι → Prop} {l : Lock ι} (hreach : Machine.Reach lock ok l) :
    l.Exclusive := by
  have hstart : Lock.Exclusive (Machine.start lock : Lock ι) := by
    constructor <;> simp [lock]
  refine hreach.invariant (P := Lock.Exclusive) hstart ?_
  intro l m l' _ _ hstep hl
  cases m with
  | take i =>
    simp only [lock, Lock.step] at hstep
    split at hstep
    · cases hstep
    · rename_i hfree
      cases hstep
      exact hl.take (Bool.eq_false_of_not_eq_true hfree) i
  | give i =>
    simp only [lock, Lock.step] at hstep
    split at hstep
    · rename_i hi
      cases hstep
      exact hl.give hi
    · cases hstep

end exclusion
