import Mathlib

namespace ownership

/-- Blocks that are alive, each at an address of its own. -/
structure Heap (β : Type) where
  blocks : List (Nat × β)
  nodup : (blocks.map Prod.fst).Nodup

namespace Heap

variable {β : Type}

def addresses (h : Heap β) : List Nat := h.blocks.map Prod.fst

def read (h : Heap β) (a : Nat) : Option β := h.blocks.lookup a

def empty : Heap β := ⟨[], List.nodup_nil⟩

def alloc (h : Heap β) (a : Nat) (ha : a ∉ h.addresses) (b : β) : Heap β :=
  ⟨(a, b) :: h.blocks, List.nodup_cons.mpr ⟨ha, h.nodup⟩⟩

/-- The blocks at these addresses are gone. -/
def free (h : Heap β) (gone : List Nat) : Heap β :=
  ⟨h.blocks.filter fun block => block.1 ∉ gone, h.nodup.sublist (List.filter_sublist.map _)⟩

/-- A heap is its blocks. -/
theorem ext_blocks {h h' : Heap β} (hblocks : h.blocks = h'.blocks) : h = h' := by
  cases h
  cases h'
  cases hblocks
  rfl

theorem lookup_of_mem {blocks : List (Nat × β)} (hnodup : (blocks.map Prod.fst).Nodup) {a : Nat} {b : β}
    (hmem : (a, b) ∈ blocks) : blocks.lookup a = some b := by
  induction blocks with
  | nil => cases hmem
  | cons block blocks ih =>
    rw [List.map_cons, List.nodup_cons] at hnodup
    rw [List.lookup_cons]
    cases List.mem_cons.mp hmem with
    | inl hhead =>
      subst hhead
      rw [beq_self_eq_true]
    | inr htail =>
      have hne : (a == block.1) = false := by
        rw [beq_eq_false_iff_ne]
        exact fun h => hnodup.1 (h ▸ List.mem_map_of_mem htail)
      rw [hne]
      exact ih hnodup.2 htail

theorem read_eq_some_iff {h : Heap β} {a : Nat} {b : β} : h.read a = some b ↔ (a, b) ∈ h.blocks := by
  constructor
  · intro hread
    obtain ⟨l₁, l₂, hblocks, -⟩ := List.lookup_eq_some_iff.mp hread
    rw [hblocks]
    exact List.mem_append_right _ List.mem_cons_self
  · exact lookup_of_mem h.nodup

theorem mem_addresses_of_read {h : Heap β} {a : Nat} {b : β} (hread : h.read a = some b) : a ∈ h.addresses :=
  List.mem_map_of_mem (read_eq_some_iff.mp hread)

/-- A new block is there to be read. -/
theorem read_alloc {h : Heap β} {a : Nat} (ha : a ∉ h.addresses) (b : β) : (h.alloc a ha b).read a = some b :=
  read_eq_some_iff.mpr List.mem_cons_self

/-- A block that is alive stays as it is when another one is allocated, -/
theorem read_alloc_of_read {h : Heap β} {a p : Nat} (ha : a ∉ h.addresses) {b c : β} (hread : h.read p = some c) :
    (h.alloc a ha b).read p = some c :=
  read_eq_some_iff.mpr (List.mem_cons_of_mem _ (read_eq_some_iff.mp hread))

/-- and when others are freed. -/
theorem read_free {h : Heap β} {gone : List Nat} {p : Nat} {c : β} (hread : h.read p = some c) (hp : p ∉ gone) :
    (h.free gone).read p = some c :=
  read_eq_some_iff.mpr (List.mem_filter.mpr ⟨read_eq_some_iff.mp hread, decide_eq_true hp⟩)

theorem free_nil (h : Heap β) : h.free [] = h :=
  ext_blocks (List.filter_eq_self.mpr fun _ _ => decide_eq_true List.not_mem_nil)

/-- Freeing in two goes is freeing all at once. -/
theorem free_free (h : Heap β) (first rest : List Nat) : (h.free first).free rest = h.free (first ++ rest) := by
  apply ext_blocks
  simp only [free, List.filter_filter]
  congr 1
  funext block
  rw [Bool.eq_iff_iff]
  simp only [Bool.and_eq_true, decide_eq_true_eq, List.mem_append, not_or]
  exact and_comm

/-- Only which addresses are freed counts, not in which order or how often. -/
theorem free_congr (h : Heap β) {gone gone' : List Nat} (hsame : ∀ a, a ∈ gone ↔ a ∈ gone') :
    h.free gone = h.free gone' := by
  apply ext_blocks
  simp only [free, hsame]

/-- What was allocated and freed again has left no trace. -/
theorem free_alloc {h : Heap β} {a : Nat} (ha : a ∉ h.addresses) (b : β) (gone : List Nat) :
    (h.alloc a ha b).free (a :: gone) = h.free gone := by
  apply ext_blocks
  simp only [free, alloc]
  rw [List.filter_cons_of_neg (by simp)]
  refine List.filter_congr fun block hblock => ?_
  have hne : block.1 ≠ a := fun h => ha (h ▸ List.mem_map_of_mem hblock)
  rw [Bool.eq_iff_iff]
  simp only [decide_eq_true_eq, List.mem_cons, not_or, hne, not_false_eq_true, true_and]

end Heap

/-- Whatever it chooses, an allocator never gives out an address that is in use. -/
structure Allocator (β : Type) where
  pick : Heap β → Nat
  unused : ∀ h, pick h ∉ h.addresses

/-- An allocator that never uses an address again while a block is behind it. -/
def Allocator.next (β : Type) : Allocator β where
  pick h := h.addresses.sum + 1
  unused h hmem := by
    have hle := List.le_sum_of_mem hmem
    omega

/-- A function that is running: the blocks its local variables own, and those it has
    moved into a vector. -/
structure Scope (β : Type) where
  heap : Heap β
  locals : List Nat
  vec : List Nat

inductive Unwound where
  | panic

/-- A function body. When it panics, it stops with what it owns at that point. -/
abbrev Own (β α : Type) := EStateM Unwound (Scope β) α

section Bodies

variable {β α γ : Type}

def Scope.enter (h : Heap β) : Scope β := ⟨h, [], []⟩

/-- The memory once everything the function owns has been dropped. -/
def Scope.dropped (s : Scope β) : Heap β := s.heap.free (s.locals ++ s.vec)

/-- A block for a new local variable. -/
def alloc (A : Allocator β) (b : β) : Own β Nat := fun s =>
  .ok (A.pick s.heap) { s with
    heap := s.heap.alloc (A.pick s.heap) (A.unused s.heap) b
    locals := A.pick s.heap :: s.locals }

/-- A local variable is moved into the vector. -/
def push (a : Nat) : Own β Unit := fun s => .ok () { s with locals := s.locals.erase a, vec := s.vec ++ [a] }

/-- The end of a function that returns its vector: the other variables are dropped. -/
def leave : Own β Unit := fun s => .ok () { s with heap := s.heap.free s.locals, locals := [] }

def unwind : Own β α := fun s => .error .panic s

/-- A function is entered with memory `outer`, and everything beyond that is its own. -/
structure Owns (outer : Heap β) (s : Scope β) : Prop where
  dropped : s.dropped = outer
  nodup : (s.locals ++ s.vec).Nodup
  alive : ∀ a ∈ s.locals ++ s.vec, a ∈ s.heap.addresses

/-- A block that the vector owns. -/
def Held (s : Scope β) (a : Nat) (b : β) : Prop := a ∈ s.vec ∧ s.heap.read a = some b

/-- A block that a local variable owns. -/
def Local (s : Scope β) (a : Nat) (b : β) : Prop := a ∈ s.locals ∧ s.heap.read a = some b

/-- Everything the vector owns is still there. -/
def Keeps (s t : Scope β) : Prop := ∀ a b, Held s a b → Held t a b

/-- A body that is run from `s` either returns with `Q`, or panics, which happens
    only if `P`, and then leaves nothing behind. -/
def Ends (outer : Heap β) (P : Prop) (m : Own β α) (s : Scope β) (Q : α → Scope β → Prop) : Prop :=
  match m s with
  | .ok a t => Q a t
  | .error _ t => P ∧ t.dropped = outer

variable {outer : Heap β} {P : Prop} {s t : Scope β}

/-- A function owns nothing when it begins. -/
theorem Owns.enter (outer : Heap β) : Owns outer (.enter outer) where
  dropped := outer.free_nil
  nodup := List.nodup_nil
  alive := fun _ ha => absurd ha List.not_mem_nil

/-- What is allocated is owned by a local variable, at an address no other block
    has. -/
theorem Owns.alloc (hs : Owns outer s) (A : Allocator β) (b : β) :
    Owns outer ⟨s.heap.alloc (A.pick s.heap) (A.unused s.heap) b, A.pick s.heap :: s.locals, s.vec⟩ where
  dropped := (Heap.free_alloc (A.unused s.heap) b (s.locals ++ s.vec)).trans hs.dropped
  nodup := List.nodup_cons.mpr ⟨fun hmem => A.unused s.heap (hs.alive _ hmem), hs.nodup⟩
  alive a ha := by
    cases List.mem_cons.mp ha with
    | inl hnew => exact hnew ▸ List.mem_cons_self
    | inr hold => exact List.mem_cons_of_mem _ (hs.alive a hold)

theorem perm_push {locals vec : List Nat} {a : Nat} (ha : a ∈ locals) :
    (locals.erase a ++ (vec ++ [a])).Perm (locals ++ vec) := by
  rw [← List.append_assoc]
  exact (List.perm_append_singleton a _).trans ((List.perm_cons_erase ha).symm.append_right vec)

/-- A block that is moved into the vector is owned still, by the vector. -/
theorem Owns.push (hs : Owns outer s) {a : Nat} (ha : a ∈ s.locals) :
    Owns outer { s with locals := s.locals.erase a, vec := s.vec ++ [a] } where
  dropped := (s.heap.free_congr fun _ => (perm_push ha).mem_iff).trans hs.dropped
  nodup := (perm_push ha).nodup_iff.mpr hs.nodup
  alive c hc := hs.alive c ((perm_push ha).mem_iff.mp hc)

/-- At the end of a block of code its locals are gone, and the vector is not. -/
theorem Owns.leave (hs : Owns outer s) : Owns outer { s with heap := s.heap.free s.locals, locals := [] } where
  dropped := (s.heap.free_free s.locals s.vec).trans hs.dropped
  nodup := hs.nodup.sublist (List.sublist_append_right _ _)
  alive a ha := by
    obtain ⟨⟨c, b⟩, hmem, rfl⟩ := List.mem_map.mp (hs.alive a (List.mem_append_right _ ha))
    have hapart : c ∉ s.locals := fun hc => (List.nodup_append'.mp hs.nodup).2.2 hc ha
    exact List.mem_map_of_mem (List.mem_filter.mpr ⟨hmem, decide_eq_true hapart⟩)

theorem Keeps.trans {u : Scope β} (hst : Keeps s t) (htu : Keeps t u) : Keeps s u :=
  fun a b h => htu a b (hst a b h)

theorem Ends.pure {a : α} {Q : α → Scope β → Prop} (h : Q a s) : Ends outer P (pure a) s Q := h

/-- A body in two parts: the second one starts from what the first one ends with. If
    the first one unwinds, the second one does not run. -/
theorem Ends.bind {m : Own β α} {f : α → Own β γ} {Q : γ → Scope β → Prop}
    (h : Ends outer P m s fun a t => Ends outer P (f a) t Q) : Ends outer P (m >>= f) s Q := by
  simp only [Ends, Bind.bind, EStateM.bind] at h ⊢
  cases hm : m s with
  | ok a t =>
    rw [hm] at h
    exact h
  | error e t =>
    rw [hm] at h
    exact h

/-- A weaker condition on the end. -/
theorem Ends.mono {m : Own β α} {Q R : α → Scope β → Prop} (h : Ends outer P m s Q) (himp : ∀ a t, Q a t → R a t) :
    Ends outer P m s R := by
  simp only [Ends] at h ⊢
  cases hm : m s with
  | ok a t =>
    rw [hm] at h
    exact himp a t h
  | error e t =>
    rw [hm] at h
    exact h

/-- A panic is an end where it may happen at all, and drops what the function owns. -/
theorem Ends.unwind (hs : Owns outer s) (hP : P) {Q : α → Scope β → Prop} : Ends outer P (unwind : Own β α) s Q :=
  ⟨hP, hs.dropped⟩

/-- What is owned already stays, at another address than the new block. The
    allocator may give any address that is free. -/
theorem Ends.alloc (hs : Owns outer s) (A : Allocator β) (b : β) :
    Ends outer P (alloc A b) s fun a t =>
      Owns outer t ∧ Keeps s t ∧ (∀ c d, Local s c d → Local t c d ∧ c ≠ a) ∧ Local t a b := by
  refine ⟨hs.alloc A b, ?_, ?_, List.mem_cons_self, Heap.read_alloc (A.unused s.heap) b⟩
  · intro c d hheld
    exact ⟨hheld.1, Heap.read_alloc_of_read (A.unused s.heap) hheld.2⟩
  · intro c d hlocal
    refine ⟨⟨List.mem_cons_of_mem _ hlocal.1, Heap.read_alloc_of_read (A.unused s.heap) hlocal.2⟩, ?_⟩
    intro hsame
    exact A.unused s.heap (hsame ▸ Heap.mem_addresses_of_read hlocal.2)

/-- A block that is moved into the vector is alive there, and the other locals keep
    theirs. -/
theorem Ends.push (hs : Owns outer s) {a : Nat} {b : β} (ha : Local s a b) :
    Ends outer P (push a) s fun _ t =>
      Owns outer t ∧ Keeps s t ∧ (∀ c d, Local s c d → c ≠ a → Local t c d) ∧ Held t a b := by
  refine ⟨hs.push ha.1, ?_, ?_, List.mem_append_right _ (List.mem_singleton_self a), ha.2⟩
  · intro c d hheld
    exact ⟨List.mem_append_left _ hheld.1, hheld.2⟩
  · intro c d hlocal hne
    exact ⟨(List.mem_erase_of_ne hne).mpr hlocal.1, hlocal.2⟩

/-- Leaving a block of code keeps what the vector owns. -/
theorem Ends.leave (hs : Owns outer s) :
    Ends outer P leave s fun _ t => Owns outer t ∧ Keeps s t ∧ t.locals = [] := by
  refine ⟨hs.leave, ?_, rfl⟩
  intro a b hheld
  have hapart : a ∉ s.locals := fun ha => (List.nodup_append'.mp hs.nodup).2.2 ha hheld.1
  exact ⟨hheld.1, Heap.read_free hheld.2 hapart⟩

end Bodies

end ownership
