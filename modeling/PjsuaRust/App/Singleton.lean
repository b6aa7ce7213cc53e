import PjsuaRust.App.Lifecycle
import PjsuaRust.Exclusion.Lock

open transition exclusion

namespace pjsua_rust.pjsua_app

/-- Between the swap of the flag and its reset. -/
def Phase.holding : Phase → Bool
  | .starting .. | .failing .. | .unwound | .live | .dropping _ => true
  | .absent | .returned _ | .gone => false

/-- From the call of `pjsua_create` to the return of `pjsua_destroy`. -/
def Phase.in_pjsua : Phase → Bool
  | .starting _ .set_event_sender | .starting _ .pjsua_create => false
  | .starting .. | .unwound | .live => true
  | .failing _ next => next ≠ .reset
  | .dropping next => next ≠ .reset
  | .absent | .returned _ | .gone => false

/-- From the installation of the sender until it is cleared, if it is. -/
def Phase.installed : Phase → Bool
  | .starting _ next => next ≠ .set_event_sender
  | .failing .. | .unwound | .live => true
  | .dropping next => next = .pjsua_stop_worker_threads ∨ next = .unregister_trace_module ∨ next = .clear_event_sender
  | .absent | .returned _ | .gone => false

/-- The app exists, or a call of `new` may still return it. -/
def Phase.live_or_starting : Phase → Bool
  | .starting .. | .failing .. | .live => true
  | _ => false

/-- The app is live, starting or being torn down. -/
def Phase.active : Phase → Bool
  | .starting .. | .failing .. | .live | .dropping _ => true
  | _ => false

/-- The flag `INITIALIZED` as a lock. -/
def Process.lock (s : Process) : Lock Nat where
  taken := s.initialized
  holds i := (s.inst i).holding

/-- Whoever is in PJSUA got past the flag. -/
theorem Phase.holding_of_in_pjsua {p : Phase} (h : p.in_pjsua = true) : p.holding = true := by
  cases p <;> first | rfl | cases h

/-- So did whoever has its sender installed. -/
theorem Phase.holding_of_installed {p : Phase} (h : p.installed = true) : p.holding = true := by
  cases p <;> first | rfl | cases h

/-- What one step of a call does to the flag and to the sender. -/
structure Advance (p q : Phase) (effect : Effect) : Prop where
  holding : p.holding = true
  reset : effect = .reset → q.holding = false
  keeps : effect ≠ .reset → q.holding = true
  installed : q.installed = true → effect ≠ .clear_event_sender ∧ (effect = .set_event_sender ∨ p.installed = true)

/-- The steps of a call, with what each does to the statics. -/
theorem Phase.advance_some {p q : Phase} {status : Int} {effect : Effect}
    (hadvance : p.advance status = some (q, effect)) : Advance p q effect := by
  unfold Phase.advance at hadvance
  -- One goal for each step, and two where a status or the configuration decides.
  split at hadvance
  all_goals try split at hadvance
  all_goals try split at hadvance
  all_goals cases hadvance
  all_goals exact ⟨rfl, by simp [Phase.holding], by simp [Phase.holding], by simp [Phase.installed]⟩

@[simp] theorem Process.set_inst_self (s : Process) (i : Nat) (p : Phase) : (s.set i p).inst i = p := by
  simp only [Process.set, Function.update_self]

theorem Process.set_inst_of_ne (s : Process) {i j : Nat} (hne : j ≠ i) (p : Phase) :
    (s.set i p).inst j = s.inst j := by
  simp only [Process.set, Function.update_of_ne hne]

@[simp] theorem Process.apply_inst (s : Process) (i : Nat) (effect : Effect) :
    (s.apply i effect).inst = s.inst := by
  cases effect <;> rfl

theorem Process.apply_initialized (s : Process) (i : Nat) {effect : Effect} (hkeeps : effect ≠ .reset) :
    (s.apply i effect).initialized = s.initialized := by
  cases effect <;> first | rfl | exact absurd rfl hkeeps

/-- One call changes its phase. -/
theorem Process.lock_set (s : Process) (i : Nat) (p : Phase) :
    (s.set i p).lock = { s.lock with holds := Function.update s.lock.holds i p.holding } := by
  have hholds := Function.comp_update Phase.holding s.inst i p
  simp only [Process.lock, Process.set, Lock.mk.injEq, true_and]
  exact hholds

/-- A phase that holds the flag as the one before did is none of the lock's
    business. -/
theorem Process.lock_set_same (s : Process) {i : Nat} {p : Phase} (hsame : p.holding = (s.inst i).holding) :
    (s.set i p).lock = s.lock := by
  rw [Process.lock_set, hsame]
  simp only [Process.lock, Lock.mk.injEq, true_and]
  exact Function.update_eq_self i fun i => (s.inst i).holding

/-- Every step takes the flag, gives it back, or leaves it alone. So the flag is a
    lock, and the exclusion it gives is the library's. -/
theorem Process.lock_step {s t : Process} {op : ProcessOp} (hstep : s.step op = some t) :
    t.lock = s.lock ∨ ∃ m, s.lock.step m = some t.lock := by
  cases Process.step_inv hstep with
  | refused habsent => exact .inl (s.lock_set_same (by rw [habsent]; rfl))
  | @started i config _ hfree =>
    refine .inr ⟨.take i, ?_⟩
    have hset := congrArg Lock.holds (s.lock_set i (.starting config .set_event_sender))
    simp only [Lock.step, show s.lock.taken = false from hfree, Bool.false_eq_true, if_false, Option.some.injEq]
    exact congrArg (Lock.mk true) hset.symm
  | @advance i _ p effect hadvance =>
    have hspec := Phase.advance_some hadvance
    by_cases hreset : effect = .reset
    · subst hreset
      refine .inr ⟨.give i, ?_⟩
      rw [Process.lock_set, hspec.reset rfl]
      simp only [Lock.step, show s.lock.holds i = true from hspec.holding, if_true]
      rfl
    · left
      rw [Process.lock_set_same _ (by rw [Process.apply_inst, hspec.keeps hreset, hspec.holding])]
      simp only [Process.lock, Process.apply_inst, s.apply_initialized i hreset]
  | drop hlive => exact .inl (s.lock_set_same (by rw [hlive]; rfl))

/-- The flag is a lock: nobody else is past it while one is. Neither the number of
    calls nor their outcomes are bounded. -/
theorem Process.exclusive_of_reach {s : Process} (hreach : process.Reach (fun _ _ => True) s) :
    s.lock.Exclusive := by
  have hrefines : Machine.Reach exclusion.lock (fun _ _ => True) s.lock := by
    refine hreach.refines Process.lock rfl ?_
    intro s op t _ _ hstep
    exact (Process.lock_step hstep).imp_right fun ⟨m, hm⟩ => ⟨m, trivial, hm⟩
  exact exclusion.exclusive_of_reach hrefines

/-- Whoever installed its sender finds it there until it clears it: nobody else
    writes it while the flag is held. -/
theorem event_tx_of_reach {s : Process} (hreach : process.Reach (fun _ _ => True) s) :
    ∀ i, (s.inst i).installed = true → s.event_tx = some i := by
  refine hreach.invariant (P := fun s => ∀ i, (s.inst i).installed = true → s.event_tx = some i)
    (fun _ h => by cases h) ?_
  intro s op t hprev _ (hstep : s.step op = some t) hinv j hj
  cases Process.step_inv hstep with
  | @refused i _ _ _ | @started i _ _ _ =>
    by_cases hji : j = i
    · subst hji
      simp [Process.set, Phase.installed] at hj
    · exact hinv j (by simpa only [Process.set, Function.update_of_ne hji] using hj)
  | @advance i _ p effect hadvance =>
    have hspec := Phase.advance_some hadvance
    have hji : j = i := by
      by_contra hne
      rw [Process.set_inst_of_ne _ hne, Process.apply_inst] at hj
      exact hne ((Process.exclusive_of_reach hprev).one j i (Phase.holding_of_installed hj) hspec.holding)
    subst hji
    rw [Process.set_inst_self] at hj
    obtain ⟨hclear, hset | hbefore⟩ := hspec.installed hj
    · subst hset
      rfl
    · have htx := hinv j hbefore
      cases effect with
      | clear_event_sender => exact absurd rfl hclear
      | none | set_event_sender | created | destroyed | reset => first | rfl | exact htx
  | @drop i hlive =>
    by_cases hji : j = i
    · subst hji
      exact hinv j (by rw [hlive]; rfl)
    · exact hinv j (by rwa [Process.set_inst_of_ne _ hji] at hj)

/-- The lifecycle of the singleton, in one state. A call of `new` that unwinds is
    not torn down: only where there is none is the flag free again. -/
structure Singleton (s : Process) : Prop where
  one : ∀ i j, (s.inst i).holding = true → (s.inst j).holding = true → i = j
  pjsua : ∀ i j, (s.inst i).in_pjsua = true → (s.inst j).in_pjsua = true → i = j
  refused : ∀ i config t, s.step (.new i config) = some t → (∃ j, (s.inst j).live_or_starting = true) →
    t = s.set i (.returned .AlreadyInitialized)
  sender : ∀ i, s.inst i = .live → s.event_tx = some i
  free : (∀ i, (s.inst i).active = false ∧ s.inst i ≠ .unwound) → s.initialized = false ∧
    ∀ i config t, s.step (.new i config) = some t → t.inst i = .starting config .set_event_sender

/-- In every interleaving of the steps of any number of calls of `new` and of drops,
    the flag, the sender and PJSUA belong to one of them: no two apps are ever past
    the flag at once, a call that finds it taken changes nothing, and it is free
    again once the app that held it is dropped. Calls may fail at any of their
    steps. -/
theorem singleton_of_reach {s : Process} (hreach : process.Reach (fun _ _ => True) s) : Singleton s := by
  have hexclusive := Process.exclusive_of_reach hreach
  have hfree (h : ∀ i, (s.inst i).active = false ∧ s.inst i ≠ .unwound) : s.initialized = false := by
    by_contra htaken
    obtain ⟨i, hi⟩ := hexclusive.taken.mp (Bool.eq_true_of_not_eq_false htaken)
    obtain ⟨hactive, hunwound⟩ := h i
    simp only [Process.lock] at hi
    cases hphase : s.inst i <;> simp_all [Phase.holding, Phase.active]
  constructor
  · exact hexclusive.one
  · exact fun i j hi hj => hexclusive.one i j (Phase.holding_of_in_pjsua hi) (Phase.holding_of_in_pjsua hj)
  · rintro i config t hstep ⟨j, hj⟩
    have hholding : (s.inst j).holding = true := by
      cases hphase : s.inst j <;> rw [hphase] at hj <;> first | rfl | cases hj
    have htaken : s.initialized = true := hexclusive.taken.mpr ⟨j, hholding⟩
    cases Process.step_inv hstep with
    | refused => rfl
    | started _ hfree =>
      rw [hfree] at htaken
      cases htaken
  · exact fun i hlive => event_tx_of_reach hreach i (by rw [hlive]; rfl)
  · intro h
    refine ⟨hfree h, fun i config t hstep => ?_⟩
    cases Process.step_inv hstep with
    | refused _ htaken =>
      rw [hfree h] at htaken
      cases htaken
    | started => exact Function.update_self i _ s.inst

/-- One call of `new` succeeds, and another one comes too late. -/
def second_new : List ProcessOp :=
  .new 0 {} :: List.replicate 8 (.advance 0 0) ++ [.new 1 {}]

/-- A second call of `new` while the first one runs is refused. -/
theorem singleton_of_reach_second_new :
    ∃ s, process.exec process.start second_new = some s ∧ s.inst 0 = .live ∧
      s.inst 1 = .returned .AlreadyInitialized ∧ Singleton s :=
  ⟨_, rfl, rfl, rfl, singleton_of_reach
    (Machine.Reach.exec .start (Machine.admits_of_forall (fun _ _ => trivial) _ second_new) rfl)⟩

end pjsua_rust.pjsua_app
