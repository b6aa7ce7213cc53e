import PjsuaRust.Transition.Log
import PjsuaRust.Transition.Machine

open transition

namespace gating

/-- What is on its way through a gate: whether it is a key, the era of the
    source it comes from, and whether it is too large to pass. -/
structure Item where
  key : Bool
  era : Nat
  oversize : Bool
deriving DecidableEq, Repr

/-- How far an item has got: held by the gate, checked against the epochs as
    they were read in some era, or refused behind the gate. -/
inductive Phase (ε : Type) where
  | idle
  | holding (x : Item)
  | checked (x : Item) (epoch : ε) (keyed : Bool) (era : Nat)
  | refused
deriving DecidableEq, Repr

/-- A gate lets keys through, and everything else once it is `sent`, which
    counts for one epoch only. -/
structure Gate (ε : Type) where
  epoch : ε
  sent : Bool
  phase : Phase ε
deriving DecidableEq, Repr

/-- An item that went through a gate, with the era in which the gate read the
    epochs, and the era whose wait for a key it satisfied, if it did: the wait of
    its own gate, or the one of all gates that do not know the epoch of the source
    yet. -/
structure Passed where
  gate : Nat
  read : Nat
  item : Item
  satisfies : Option Nat
deriving DecidableEq, Repr

/-- Any number of gates over one source. A restart starts a new era and names
    it by a new epoch; `keyed` is the epoch a key was let through in last. -/
structure Gates (ε : Type) where
  source : ε
  keyed : ε
  era : Nat
  gate : Nat → Gate ε
  log : List Passed

inductive Move (ε : Type) where
  | restart (epoch : ε)
  | open (c : Nat)
  | hold (c : Nat) (x : Item)
  | check (c : Nat)
  | wait (c : Nat)
  | pass (c : Nat)
  | refuse (c : Nat)
  | drop (c : Nat)

variable {ε : Type} [DecidableEq ε]

/-- The flag of a gate once it knows the epoch. -/
def Gate.sentIn (g : Gate ε) (epoch : ε) (keyed : Bool) : Bool :=
  if g.epoch = epoch then g.sent else keyed

/-- Whether the gate lets an item through, going by the epochs it read. -/
def Gate.lets (g : Gate ε) (x : Item) (epoch : ε) (keyed : Bool) : Bool :=
  (g.sentIn epoch keyed || x.key) && !x.oversize

def Gates.set (s : Gates ε) (c : Nat) (g : Gate ε) : Gates ε :=
  { s with gate := Function.update s.gate c g }

/-- A key satisfies a wait: its gate was not open in the epoch it read, or the
    epoch it makes known is the one of the source and was not known. Where the gate
    read the epoch that the source has now, the wait is that of the source's era. -/
def Gates.satisfies (s : Gates ε) (c : Nat) (x : Item) (epoch : ε) (keyed : Bool) (era : Nat) : Option Nat :=
  if x.key && (!(s.gate c).sentIn epoch keyed || decide (epoch = s.source ∧ s.keyed ≠ epoch)) then
    some (if epoch = s.source then s.era else era)
  else none

/-- An item goes through a gate, and a key makes its epoch known. -/
def Gates.through (s : Gates ε) (c : Nat) (x : Item) (epoch : ε) (keyed : Bool) (era : Nat) (phase : Phase ε) :
    Gates ε :=
  { s.set c { epoch, sent := true, phase } with
    keyed := if x.key then epoch else s.keyed
    log := { gate := c, read := era, item := x, satisfies := s.satisfies c x epoch keyed era } :: s.log }

/-- `zero` is an epoch no source has. What is dropped takes the flags with it;
    while it waits to be, they stay set. -/
def Gates.step (zero : ε) (s : Gates ε) : Move ε → Option (Gates ε)
  | .restart epoch => some { s with source := epoch, era := s.era + 1 }
  | .open c =>
    match (s.gate c).phase with
    | .idle => some (s.set c { epoch := zero, sent := false, phase := .idle })
    | _ => none
  | .hold c x =>
    match (s.gate c).phase with
    | .idle => some (s.set c { s.gate c with phase := .holding x })
    | _ => none
  | .check c =>
    match (s.gate c).phase with
    | .holding x => some (s.set c { s.gate c with phase := .checked x s.source (s.keyed = s.source) s.era })
    | _ => none
  | .wait c =>
    match (s.gate c).phase with
    | .checked x epoch keyed _ =>
      if (s.gate c).sentIn epoch keyed || x.key then none
      else some (s.set c { epoch, sent := false, phase := .idle })
    | _ => none
  | .pass c =>
    match (s.gate c).phase with
    | .checked x epoch keyed era =>
      if (s.gate c).lets x epoch keyed then some (s.through c x epoch keyed era .idle) else none
    | _ => none
  | .refuse c =>
    match (s.gate c).phase with
    | .checked x epoch keyed era =>
      if (s.gate c).lets x epoch keyed then some (s.through c x epoch keyed era .refused) else none
    | _ => none
  | .drop c =>
    match (s.gate c).phase with
    | .holding _ => none
    | .checked _ epoch _ _ => some { s.set c { epoch, sent := false, phase := .idle } with keyed := zero }
    | _ => some { s.set c { s.gate c with sent := false, phase := .idle } with keyed := zero }

/-- Everything one move can do. -/
inductive GatesStep (zero : ε) (s : Gates ε) : Move ε → Gates ε → Prop where
  | restart (epoch : ε) : GatesStep zero s (.restart epoch) { s with source := epoch, era := s.era + 1 }
  | opened {c : Nat} (hidle : (s.gate c).phase = .idle) :
      GatesStep zero s (.open c) (s.set c { epoch := zero, sent := false, phase := .idle })
  | hold {c : Nat} (x : Item) (hidle : (s.gate c).phase = .idle) :
      GatesStep zero s (.hold c x) (s.set c { s.gate c with phase := .holding x })
  | check {c : Nat} {x : Item} (hphase : (s.gate c).phase = .holding x) :
      GatesStep zero s (.check c)
        (s.set c { s.gate c with phase := .checked x s.source (s.keyed = s.source) s.era })
  | wait {c : Nat} {x : Item} {epoch : ε} {keyed : Bool} {era : Nat}
      (hphase : (s.gate c).phase = .checked x epoch keyed era)
      (hwait : ¬ ((s.gate c).sentIn epoch keyed || x.key) = true) :
      GatesStep zero s (.wait c) (s.set c { epoch, sent := false, phase := .idle })
  | pass {c : Nat} {x : Item} {epoch : ε} {keyed : Bool} {era : Nat}
      (hphase : (s.gate c).phase = .checked x epoch keyed era) (hlets : (s.gate c).lets x epoch keyed = true) :
      GatesStep zero s (.pass c) (s.through c x epoch keyed era .idle)
  | refuse {c : Nat} {x : Item} {epoch : ε} {keyed : Bool} {era : Nat}
      (hphase : (s.gate c).phase = .checked x epoch keyed era) (hlets : (s.gate c).lets x epoch keyed = true) :
      GatesStep zero s (.refuse c) (s.through c x epoch keyed era .refused)
  | drop {c : Nat} (epoch : ε) (hphase : ∀ x, (s.gate c).phase ≠ .holding x) :
      GatesStep zero s (.drop c) { s.set c { epoch, sent := false, phase := .idle } with keyed := zero }

/-- The inversion of `Gates.step`: its branches, with the guard of each. -/
theorem Gates.step_inv {zero : ε} {s t : Gates ε} {m : Move ε} (hstep : s.step zero m = some t) :
    GatesStep zero s m t := by
  cases m with
  | restart epoch =>
    cases hstep
    exact .restart epoch
  | «open» c =>
    simp only [Gates.step] at hstep
    split at hstep
    · rename_i hidle
      cases hstep
      exact .opened hidle
    · cases hstep
  | hold c x =>
    simp only [Gates.step] at hstep
    split at hstep
    · rename_i hidle
      cases hstep
      exact .hold x hidle
    · cases hstep
  | check c =>
    simp only [Gates.step] at hstep
    split at hstep
    · rename_i x hphase
      cases hstep
      exact .check hphase
    · cases hstep
  | wait c =>
    simp only [Gates.step] at hstep
    split at hstep
    · rename_i hphase
      split at hstep
      · cases hstep
      · rename_i hwait
        cases hstep
        exact .wait hphase hwait
    · cases hstep
  | pass c =>
    simp only [Gates.step] at hstep
    split at hstep
    · rename_i hphase
      split at hstep
      · rename_i hlets
        cases hstep
        exact .pass hphase hlets
      · cases hstep
    · cases hstep
  | refuse c =>
    simp only [Gates.step] at hstep
    split at hstep
    · rename_i hphase
      split at hstep
      · rename_i hlets
        cases hstep
        exact .refuse hphase hlets
      · cases hstep
    · cases hstep
  | drop c =>
    simp only [Gates.step] at hstep
    split at hstep
    · cases hstep
    · rename_i hphase
      cases hstep
      exact .drop _ (by simp [hphase])
    · rename_i hnot _
      cases hstep
      exact .drop _ hnot

/-- No gate has held anything yet. -/
def gates (zero source : ε) : Machine (Gates ε) (Move ε) where
  start := {
    source, keyed := zero, era := 0
    gate := fun _ => { epoch := zero, sent := false, phase := .idle }
    log := [] }
  step := Gates.step zero

end gating
