import PjsuaRust.Transition.Machine

open transition

namespace exclusion

/-- What a function does with the locks `L`, and its calls out of the program. -/
inductive Op (L : Type) where
  | lock (l : L)
  | unlock (l : L)
  | callback
deriving DecidableEq

/-- A frame of a thread's stack: a function with what is left of it to do, or a
    callback, in which it runs code of someone else's. -/
inductive Frame (L : Type) where
  | code (rest : List (Op L))
  | callback

/-- Who owns each lock, and the stack of each thread, innermost frame first. A
    lock has one owner, which can take it no second time. -/
structure Threads (T L : Type) where
  owner : L → Option T
  stack : T → List (Frame L)

inductive Action (T C : Type) where
  | call (t : T) (c : C)
  | run (t : T)
  | finish (t : T)

section Machine

variable {T L C : Type} [DecidableEq T] [DecidableEq L]

def Threads.set_stack (s : Threads T L) (t : T) (frames : List (Frame L)) : Threads T L :=
  { s with stack := Function.update s.stack t frames }

def Threads.set_owner (s : Threads T L) (l : L) (owner : Option T) : Threads T L :=
  { s with owner := Function.update s.owner l owner }

/-- The next operation of a thread that runs a function. -/
def Threads.next (s : Threads T L) (t : T) : Option (Op L) :=
  match s.stack t with
  | .code (op :: _) :: _ => some op
  | _ => none

/-- One operation of a thread, if it can be taken: a lock only while nobody owns
    it, and only its owner gives it back. The end of a function is one too. -/
def Threads.run (s : Threads T L) (t : T) : Option (Threads T L) :=
  match s.stack t with
  | .code [] :: below => some (s.set_stack t below)
  | .code (.lock l :: rest) :: below =>
    if s.owner l = none then some ((s.set_owner l (some t)).set_stack t (.code rest :: below)) else none
  | .code (.unlock l :: rest) :: below =>
    if s.owner l = some t then some ((s.set_owner l none).set_stack t (.code rest :: below)) else none
  | .code (.callback :: rest) :: below => some (s.set_stack t (.callback :: .code rest :: below))
  | _ => none

/-- A thread that runs nothing may call any function, and one in a callback those
    that `reenters` admits, as often as it likes before the callback ends. -/
def Threads.step (ops : C → List (Op L)) (reenters : C → Bool) (s : Threads T L) :
    Action T C → Option (Threads T L)
  | .call t c =>
    match s.stack t with
    | [] => some (s.set_stack t [.code (ops c)])
    | .callback :: below =>
      if reenters c then some (s.set_stack t (.code (ops c) :: .callback :: below)) else none
    | _ => none
  | .run t => s.run t
  | .finish t =>
    match s.stack t with
    | .callback :: below => some (s.set_stack t below)
    | _ => none

/-- Any number of threads, from a state where no lock is owned and nothing runs. -/
def threads (ops : C → List (Op L)) (reenters : C → Bool) : Machine (Threads T L) (Action T C) where
  start := { owner := fun _ => none, stack := fun _ => [] }
  step := Threads.step ops reenters

/-- A thread waits for another one, or for itself. -/
def Threads.Waits (s : Threads T L) (t u : T) : Prop :=
  ∃ l, s.next t = some (.lock l) ∧ s.owner l = some u

end Machine

variable {T L C : Type} {rank : L → Nat}

section Discipline

variable [DecidableEq L]

/-- Code that takes locks by rising rank, gives back those it holds, and holds
    none when it calls out or ends. -/
def Ordered (rank : L → Nat) : List L → List (Op L) → Prop
  | held, [] => held = []
  | held, .lock l :: rest => (∀ h ∈ held, rank h < rank l) ∧ Ordered rank (l :: held) rest
  | held, .unlock l :: rest => l ∈ held ∧ Ordered rank (held.erase l) rest
  | held, .callback :: rest => held = [] ∧ Ordered rank [] rest

/-- Code that keeps to the order can be followed by other code that does, once all
    locks are given back. -/
theorem Ordered.append {held : List L} {code next : List (Op L)} (hcode : Ordered rank held code)
    (hnext : Ordered rank [] next) : Ordered rank held (code ++ next) := by
  induction code generalizing held with
  | nil =>
    cases hcode
    exact hnext
  | cons op code ih =>
    cases op with
    | lock l => exact ⟨hcode.1, ih hcode.2⟩
    | unlock l => exact ⟨hcode.1, ih hcode.2⟩
    | callback => exact ⟨hcode.1, ih hcode.2⟩

/-- Both branches keep to the order, so it need not be known which one is taken. -/
theorem ordered_ite {p : Prop} [Decidable p] {code other : List (Op L)} (hcode : Ordered rank [] code)
    (hother : Ordered rank [] other) : Ordered rank [] (if p then code else other) := by
  split
  · exact hcode
  · exact hother

/-- Any number of pieces in a row, each of which takes locks in order and gives them
    all back. -/
theorem ordered_flatten {codes : List (List (Op L))} (hcodes : ∀ code ∈ codes, Ordered rank [] code) :
    Ordered rank [] codes.flatten := by
  induction codes with
  | nil => rfl
  | cons code codes ih =>
    rw [List.flatten_cons]
    apply Ordered.append (hcodes code List.mem_cons_self)
    exact ih fun next hnext => hcodes next (List.mem_cons_of_mem _ hnext)

/-- Only the innermost frame of a stack holds locks. -/
def Sound (rank : L → Nat) : List L → List (Frame L) → Prop
  | held, [] => held = []
  | held, .code rest :: below => Ordered rank held rest ∧ Sound rank [] below
  | held, .callback :: below => held = [] ∧ Sound rank [] below

/-- The locks each thread holds, and that its stack keeps to the order with
    them. -/
structure Holds (rank : L → Nat) (s : Threads T L) (held : T → List L) : Prop where
  nodup : ∀ t, (held t).Nodup
  owner : ∀ t l, l ∈ held t ↔ s.owner l = some t
  sound : ∀ t, Sound rank (held t) (s.stack t)

def Disciplined (rank : L → Nat) (s : Threads T L) : Prop := ∃ held, Holds rank s held

end Discipline

section Steps

variable [DecidableEq T] [DecidableEq L] {s s' : Threads T L} {held : T → List L} {t : T} {l : L}
  {frames : List (Frame L)}

/-- One thread changes its stack and the locks it holds, and nothing changes for
    the others. -/
theorem Holds.update (hholds : Holds rank s held) {owner : L → Option T} {locks : List L} (hnodup : locks.Nodup)
    (howner : ∀ m, m ∈ locks ↔ owner m = some t) (hothers : ∀ u, u ≠ t → ∀ m, s.owner m = some u ↔ owner m = some u)
    (hsound : Sound rank locks frames) :
    Holds rank { owner, stack := Function.update s.stack t frames } (Function.update held t locks) := by
  constructor
  · intro u
    by_cases hu : u = t
    · rw [hu, Function.update_self]
      exact hnodup
    · rw [Function.update_of_ne hu]
      exact hholds.nodup u
  · intro u m
    by_cases hu : u = t
    · rw [hu, Function.update_self]
      exact howner m
    · rw [Function.update_of_ne hu, hholds.owner]
      exact hothers u hu m
  · intro u
    by_cases hu : u = t
    · simp only [hu, Function.update_self]
      exact hsound
    · simp only [Function.update_of_ne hu]
      exact hholds.sound u

/-- The thread goes on with other code, and with the same locks. -/
theorem Holds.set_stack (hholds : Holds rank s held) (hsound : Sound rank (held t) frames) :
    Holds rank (s.set_stack t frames) held := by
  have h := hholds.update (hholds.nodup t) (hholds.owner t) (fun _ _ _ => Iff.rfl) hsound
  rw [Function.update_eq_self] at h
  exact h

/-- A thread that takes a lock holds it with the others. The lock is free, so that
    no other thread had it, and it must come after those the thread has. -/
theorem Holds.take (hholds : Holds rank s held) (hfree : s.owner l = none)
    (hsound : Sound rank (l :: held t) frames) :
    Holds rank ((s.set_owner l (some t)).set_stack t frames) (Function.update held t (l :: held t)) := by
  have hnone : l ∉ held t := fun hl => by
    rw [hholds.owner, hfree] at hl
    cases hl
  apply hholds.update ((hholds.nodup t).cons hnone)
  · intro m
    rw [Threads.set_owner, List.mem_cons]
    by_cases hm : m = l
    · simp [hm]
    · simp [hm, hholds.owner]
  · intro u hu m
    rw [Threads.set_owner]
    by_cases hm : m = l
    · simp [hm, hfree, Ne.symm hu]
    · simp [hm]
  · exact hsound

/-- A thread that gives a lock back holds the others still. It need not be the one
    it took last. -/
theorem Holds.give (hholds : Holds rank s held) (howner : s.owner l = some t)
    (hsound : Sound rank ((held t).erase l) frames) :
    Holds rank ((s.set_owner l none).set_stack t frames) (Function.update held t ((held t).erase l)) := by
  apply hholds.update ((hholds.nodup t).erase l)
  · intro m
    rw [Threads.set_owner, (hholds.nodup t).mem_erase_iff]
    by_cases hm : m = l
    · simp [hm]
    · simp [hm, hholds.owner]
  · intro u hu m
    rw [Threads.set_owner]
    by_cases hm : m = l
    · simp [hm, howner, Ne.symm hu]
    · simp [hm]
  · exact hsound

/-- An operation of a thread keeps the discipline. Only the next operation of that
    thread is looked at, so the threads may be any number and their code may differ. -/
theorem Disciplined.run (hs : Disciplined rank s) (hrun : s.run t = some s') : Disciplined rank s' := by
  obtain ⟨held, hholds⟩ := hs
  have hsound := hholds.sound t
  unfold Threads.run at hrun
  split at hrun
  · rename_i below hstack
    cases hrun
    rw [hstack] at hsound
    refine ⟨held, hholds.set_stack ?_⟩
    rw [show held t = [] from hsound.1]
    exact hsound.2
  · rename_i l rest below hstack
    rw [hstack] at hsound
    split at hrun
    · rename_i hfree
      cases hrun
      exact ⟨_, hholds.take hfree ⟨hsound.1.2, hsound.2⟩⟩
    · cases hrun
  · rename_i l rest below hstack
    rw [hstack] at hsound
    split at hrun
    · rename_i howner
      cases hrun
      exact ⟨_, hholds.give howner ⟨hsound.1.2, hsound.2⟩⟩
    · cases hrun
  · rename_i rest below hstack
    cases hrun
    rw [hstack] at hsound
    exact ⟨held, hholds.set_stack ⟨hsound.1.1, hsound.1.2, hsound.2⟩⟩
  · cases hrun

/-- Where every function keeps to the order, so does every thread, whatever it
    calls from its callbacks. -/
theorem Disciplined.step {ops : C → List (Op L)} {reenters : C → Bool} (hops : ∀ c, Ordered rank [] (ops c))
    {a : Action T C} (hs : Disciplined rank s) (hstep : s.step ops reenters a = some s') :
    Disciplined rank s' := by
  cases a with
  | call t c =>
    obtain ⟨held, hholds⟩ := hs
    have hsound := hholds.sound t
    simp only [Threads.step] at hstep
    split at hstep
    · rename_i hstack
      cases hstep
      rw [hstack] at hsound
      refine ⟨held, hholds.set_stack ?_⟩
      rw [show held t = [] from hsound]
      exact ⟨hops c, rfl⟩
    · rename_i below hstack
      rw [hstack] at hsound
      split at hstep
      · cases hstep
        refine ⟨held, hholds.set_stack ?_⟩
        rw [show held t = [] from hsound.1]
        exact ⟨hops c, rfl, hsound.2⟩
      · cases hstep
    · cases hstep
  | run t => exact hs.run hstep
  | finish t =>
    obtain ⟨held, hholds⟩ := hs
    have hsound := hholds.sound t
    simp only [Threads.step] at hstep
    split at hstep
    · rename_i below hstack
      cases hstep
      rw [hstack] at hsound
      refine ⟨held, hholds.set_stack ?_⟩
      rw [show held t = [] from hsound.1]
      exact hsound.2
    · cases hstep

/-- Where every function keeps to the order, every reachable state is disciplined.
    The number of threads and the interleaving are arbitrary. -/
theorem disciplined_of_reach {ops : C → List (Op L)} {reenters : C → Bool} (hops : ∀ c, Ordered rank [] (ops c))
    {ok : Threads T L → Action T C → Prop} (hreach : Machine.Reach (threads ops reenters) ok s) :
    Disciplined rank s := by
  refine hreach.invariant (P := Disciplined rank) ?_ ?_
  · exact ⟨fun _ => [], ⟨fun _ => List.nodup_nil, by simp [threads], fun _ => rfl⟩⟩
  · intro s a s' _ _ hstep hs
    exact hs.step hops hstep

end Steps

section Order

variable [DecidableEq L] {s : Threads T L} {t : T} {l : L}

/-- A thread that is about to take a lock holds only locks of lower ranks. This is
    what keeps waiting threads from waiting in a circle. -/
theorem Disciplined.rank_lt (hs : Disciplined rank s) {m : L} (hnext : s.next t = some (.lock m))
    (howner : s.owner l = some t) : rank l < rank m := by
  obtain ⟨held, hholds⟩ := hs
  have hsound := hholds.sound t
  unfold Threads.next at hnext
  split at hnext
  · rename_i op rest below hstack
    cases hnext
    rw [hstack] at hsound
    exact hsound.1.1 l ((hholds.owner t l).mpr howner)
  · cases hnext

/-- A thread that is about to call out holds no lock, so that the callback may take
    any. -/
theorem Disciplined.not_owner_of_callback (hs : Disciplined rank s) (hnext : s.next t = some .callback) (l : L) :
    s.owner l ≠ some t := by
  obtain ⟨held, hholds⟩ := hs
  have hsound := hholds.sound t
  unfold Threads.next at hnext
  split at hnext
  · rename_i op rest below hstack
    cases hnext
    rw [hstack] at hsound
    rw [Ne, ← hholds.owner, hsound.1.1]
    exact List.not_mem_nil
  · cases hnext

/-- No thread is about to take a lock it holds. -/
theorem Disciplined.not_self (hs : Disciplined rank s) (hnext : s.next t = some (.lock l)) : s.owner l ≠ some t :=
  fun howner => Nat.lt_irrefl _ (hs.rank_lt hnext howner)

/-- Along a chain of waiting threads the locks they wait for rise in rank. The
    induction is on the chain. -/
theorem Disciplined.rank_lt_of_waits (hs : Disciplined rank s) {u : T} {m : L}
    (hwaits : Relation.TransGen s.Waits t u) (hnext : s.next t = some (.lock l))
    (hlast : s.next u = some (.lock m)) : rank l < rank m := by
  induction hwaits generalizing m with
  | single hwait =>
    obtain ⟨l', hnext', howner⟩ := hwait
    rw [hnext] at hnext'
    cases hnext'
    exact hs.rank_lt hlast howner
  | tail _ hwait ih =>
    obtain ⟨l', hnext', howner⟩ := hwait
    exact (ih hnext').trans (hs.rank_lt hlast howner)

/-- No threads wait for each other in a cycle. -/
theorem Disciplined.no_cycle (hs : Disciplined rank s) (t : T) : ¬Relation.TransGen s.Waits t t := by
  intro hcycle
  obtain ⟨u, ⟨l, hnext, -⟩, -⟩ := Relation.TransGen.head'_iff.mp hcycle
  exact Nat.lt_irrefl _ (hs.rank_lt_of_waits hcycle hnext hnext)

variable [DecidableEq T]

/-- The owner of a lock can go on, or is about to take one that has an owner. It
    never ends with a lock in hand, since its code gives back what it takes. -/
theorem Disciplined.run_or_waits (hs : Disciplined rank s) (howner : s.owner l = some t) :
    (∃ s', s.run t = some s') ∨ ∃ m u, s.next t = some (.lock m) ∧ s.owner m = some u := by
  obtain ⟨held, hholds⟩ := hs
  have hheld : held t ≠ [] := List.ne_nil_of_mem ((hholds.owner t l).mpr howner)
  have hsound := hholds.sound t
  cases hstack : s.stack t with
  | nil =>
    rw [hstack] at hsound
    exact absurd hsound hheld
  | cons frame below =>
    rw [hstack] at hsound
    cases frame with
    | callback => exact absurd hsound.1 hheld
    | code rest =>
      cases rest with
      | nil => exact absurd hsound.1 hheld
      | cons op rest =>
        cases op with
        | lock m =>
          cases hfree : s.owner m with
          | none =>
            left
            simp only [Threads.run, hstack, if_pos hfree]
            exact ⟨_, rfl⟩
          | some u => exact .inr ⟨m, u, by simp only [Threads.next, hstack], hfree⟩
        | unlock m =>
          have hown := (hholds.owner t m).mp hsound.1.1
          left
          simp only [Threads.run, hstack, if_pos hown]
          exact ⟨_, rfl⟩
        | callback => exact absurd hsound.1.1 hheld

/-- Behind every lock that is owned there is a thread that can go on: its owner,
    or one that its owner waits for. -/
theorem Disciplined.exists_run (hs : Disciplined rank s) {bound : Nat} (hbound : ∀ l, rank l < bound)
    (howner : s.owner l = some t) : ∃ u, Relation.ReflTransGen s.Waits t u ∧ ∃ s', s.run u = some s' := by
  -- On the ranks above the lock's own.
  induction hk : bound - rank l using Nat.strong_induction_on generalizing l t with
  | _ k ih =>
    rcases hs.run_or_waits howner with hrun | ⟨m, u, hnext, howner'⟩
    · exact ⟨t, .refl, hrun⟩
    · have hlt := hs.rank_lt hnext howner
      have hm := hbound m
      obtain ⟨v, hwaits, hrun⟩ := ih (bound - rank m) (by omega) howner' rfl
      exact ⟨v, .head ⟨m, hnext, howner'⟩ hwaits, hrun⟩

end Order

end exclusion
