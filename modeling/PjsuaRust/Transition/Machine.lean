import Mathlib

namespace transition

/-- A state machine with one start state. An operation that cannot be taken in
    a state has no successor there. -/
structure Machine (S A : Type) where
  start : S
  step : S → A → Option S

namespace Machine

variable {S A : Type} {m : Machine S A} {ok ok' : S → A → Prop}

/-- The states of the runs in which every operation is taken in a state where
    `ok` admits it. -/
inductive Reach (m : Machine S A) (ok : S → A → Prop) : S → Prop where
  | start : Reach m ok m.start
  | step {s t : S} {a : A} (hreach : Reach m ok s) (hok : ok s a)
      (hstep : m.step s a = some t) : Reach m ok t

/-- An invariant that holds at the start and is kept by every admitted step
    holds throughout. The step may use that its source is itself reachable. -/
theorem Reach.invariant {P : S → Prop} (hstart : P m.start)
    (hstep : ∀ s a t, Reach m ok s → ok s a → m.step s a = some t → P s → P t)
    {s : S} (hreach : Reach m ok s) : P s := by
  induction hreach with
  | start => exact hstart
  | step hprev hok htaken ih => exact hstep _ _ _ hprev hok htaken ih

/-- A weaker admission condition reaches every state a stronger one does. -/
theorem Reach.mono (himp : ∀ s a, ok s a → ok' s a) {s : S} (hreach : Reach m ok s) :
    Reach m ok' s := by
  induction hreach with
  | start => exact .start
  | step _ hok htaken ih => exact .step ih (himp _ _ hok) htaken

/-- A machine whose steps are steps of another one, or leave it where it is,
    reaches what the other one reaches. -/
theorem Reach.refines {S' A' : Type} {m' : Machine S' A'} {admits : S' → A' → Prop} (abs : S → S')
    (hstart : abs m.start = m'.start)
    (hstep : ∀ s a t, Reach m ok s → ok s a → m.step s a = some t →
      abs t = abs s ∨ ∃ b, admits (abs s) b ∧ m'.step (abs s) b = some (abs t))
    {s : S} (hreach : Reach m ok s) : Reach m' admits (abs s) := by
  induction hreach with
  | start =>
    rw [hstart]
    exact .start
  | step hprev hok htaken ih =>
    rcases hstep _ _ _ hprev hok htaken with hsame | ⟨b, hadmits, htaken'⟩
    · rw [hsame]
      exact ih
    · exact .step ih hadmits htaken'

/-- The state a list of operations leads to. -/
def exec (m : Machine S A) : S → List A → Option S
  | s, [] => some s
  | s, a :: as => (m.step s a).bind fun t => exec m t as

/-- Every operation of the list is admitted in the state it is taken in. -/
def Admits (m : Machine S A) (ok : S → A → Prop) : S → List A → Prop
  | _, [] => True
  | s, a :: as => ok s a ∧ ∀ t, m.step s a = some t → Admits m ok t as

@[simp] theorem exec_nil (s : S) : m.exec s [] = some s := rfl

theorem exec_cons (s : S) (a : A) (as : List A) :
    m.exec s (a :: as) = (m.step s a).bind fun t => m.exec t as := rfl

/-- Two lists of operations in a row are one list. -/
theorem exec_append (s : S) (as bs : List A) :
    m.exec s (as ++ bs) = (m.exec s as).bind fun t => m.exec t bs := by
  induction as generalizing s with
  | nil => rfl
  | cons a as ih =>
    rw [List.cons_append, exec_cons, exec_cons, Option.bind_assoc]
    exact congrArg _ (funext fun t => ih t)

/-- Where every operation can be taken, so can every list of them. -/
theorem exec_total (htotal : ∀ s a, ∃ t, m.step s a = some t) (s : S) (as : List A) : ∃ t, m.exec s as = some t := by
  induction as generalizing s with
  | nil => exact ⟨s, rfl⟩
  | cons a as ih =>
    obtain ⟨t, hstep⟩ := htotal s a
    rw [exec_cons, hstep, Option.bind_some]
    exact ih t

/-- Two machines whose steps agree along a map of states agree on every run. Where
    the one cannot go on, neither can the other. -/
theorem exec_map {S' : Type} {m' : Machine S' A} (f : S' → S) (hstep : ∀ s a, m.step (f s) a = (m'.step s a).map f)
    (s : S') (as : List A) : m.exec (f s) as = (m'.exec s as).map f := by
  induction as generalizing s with
  | nil => rfl
  | cons a as ih =>
    rw [exec_cons, exec_cons, hstep]
    cases m'.step s a with
    | none => rfl
    | some t => exact ih t

/-- An admitted list of operations leads from a reachable state to a reachable
    state. -/
theorem Reach.exec {s t : S} {as : List A} (hreach : Reach m ok s)
    (hadmits : m.Admits ok s as) (hexec : m.exec s as = some t) : Reach m ok t := by
  induction as generalizing s with
  | nil =>
    cases hexec
    exact hreach
  | cons a as ih =>
    rw [exec_cons] at hexec
    obtain ⟨u, hstep, hrest⟩ := Option.bind_eq_some_iff.mp hexec
    exact ih (.step hreach hadmits.1 hstep) (hadmits.2 u hstep) hrest

/-- What is read off the state a run leads to can be evaluated without the rest of
    that state. -/
theorem exists_exec {B : Type} (f : S → B) {b : B} {P : S → Prop} {s : S} {as : List A}
    (hread : (m.exec s as).map f = some b) (hP : ∀ t, m.exec s as = some t → f t = b → P t) :
    ∃ t, m.exec s as = some t ∧ P t := by
  obtain ⟨t, hexec, hb⟩ := Option.map_eq_some_iff.mp hread
  exact ⟨t, hexec, hP t hexec hb⟩

/-- The first operation is admitted, and the rest from where it leads. -/
theorem Admits.cons {s t : S} {a : A} {as : List A} (hstep : m.step s a = some t) (hok : ok s a)
    (hrest : m.Admits ok t as) : m.Admits ok s (a :: as) := by
  refine ⟨hok, fun u hu => ?_⟩
  rw [hstep] at hu
  cases hu
  exact hrest

/-- Takes the operations one after the other, with a test before each. -/
def tests (m : Machine S A) (test : S → A → Bool) : S → List A → Bool
  | _, [] => true
  | s, a :: as => test s a && (m.step s a).all fun t => tests m test t as

/-- A list of operations that passes its tests is admitted, where a test tells
    this in the states of an invariant. It need not pass all that is admitted. -/
theorem Admits.of_tests (P : S → Prop) (test : S → A → Bool) (hsound : ∀ s a, P s → test s a = true → ok s a)
    (hkeep : ∀ s a t, P s → test s a = true → m.step s a = some t → P t) {s : S} {as : List A} (hs : P s)
    (htests : m.tests test s as = true) : m.Admits ok s as := by
  induction as generalizing s with
  | nil => trivial
  | cons a as ih =>
    simp only [tests, Bool.and_eq_true] at htests
    refine ⟨hsound s a hs htests.1, fun t hstep => ih (hkeep s a t hs htests.1 hstep) ?_⟩
    have hrest := htests.2
    rw [hstep] at hrest
    exact hrest

/-- Where every operation is admitted everywhere, so is every list of them. -/
theorem admits_of_forall (h : ∀ s a, ok s a) (s : S) (as : List A) : m.Admits ok s as := by
  induction as generalizing s with
  | nil => trivial
  | cons a as ih => exact ⟨h s a, fun t _ => ih t⟩

/-- Every step that a list of operations takes is as `Q` says. -/
def EachStep (m : Machine S A) (Q : S → A → S → Prop) : S → List A → Prop
  | _, [] => True
  | s, a :: as => ∀ t, m.step s a = some t → Q s a t ∧ EachStep m Q t as

/-- Where the admitted steps are as `Q` says and no other step is, a run has only
    such steps exactly if each of them is admitted. -/
theorem Reach.eachStep_iff {Q : S → A → S → Prop}
    (hexact : ∀ s a t, Reach m ok s → m.step s a = some t → (Q s a t ↔ ok s a))
    {s t : S} {as : List A} (hreach : Reach m ok s) (hexec : m.exec s as = some t) :
    m.EachStep Q s as ↔ m.Admits ok s as := by
  induction as generalizing s with
  | nil => exact Iff.rfl
  | cons a as ih =>
    rw [exec_cons] at hexec
    obtain ⟨u, hstep, hrest⟩ := Option.bind_eq_some_iff.mp hexec
    have hiff := hexact s a u hreach hstep
    constructor
    · intro hsteps
      obtain ⟨hQ, hafter⟩ := hsteps u hstep
      have hok := hiff.mp hQ
      exact Admits.cons hstep hok ((ih (.step hreach hok hstep) hrest).mp hafter)
    · intro hadmits v hv
      rw [hstep] at hv
      cases hv
      exact ⟨hiff.mpr hadmits.1, (ih (.step hreach hadmits.1 hstep) hrest).mpr (hadmits.2 u hstep)⟩

end Machine

end transition
