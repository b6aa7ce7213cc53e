import PjsuaRust.Gates.Basic

open transition

namespace gating

variable {ε : Type} [DecidableEq ε]

/-- Nothing went through the gate. -/
def Untouched (s : Gates ε) (c : Nat) : Prop := ∀ p ∈ s.log, p.gate ≠ c

/-- The first item to go through a gate is a key. -/
def StartsOnKey (log : List Passed) : Prop :=
  Logged (fun p past => p.item.key = true ∨ ∃ q ∈ past, q.gate = p.gate) log

/-- The condition on a move: a gate that nothing went through, and that does not
    know the epoch of the source, reads the epochs with something else than a
    key in hand only while no key of the source is known. -/
def Unkeyed (s : Gates ε) : Move ε → Prop
  | .check c => Untouched s c → (s.gate c).epoch ≠ s.source →
      ∀ x, (s.gate c).phase = .holding x → x.key = false → s.keyed ≠ s.source
  | _ => True

/-- A gate that nothing went through is not open, and lets only keys through. -/
structure Closed (g : Gate ε) : Prop where
  sent : g.sent = false
  checked : ∀ x epoch keyed era, g.phase = .checked x epoch keyed era → x.key = false →
    g.sentIn epoch keyed = false

structure Starts (s : Gates ε) : Prop where
  closed : ∀ c, Untouched s c → Closed (s.gate c)
  log : StartsOnKey s.log

variable {zero : ε} {s : Gates ε}

/-- A gate that is not open, and has read no epochs, is closed. -/
theorem Closed.of_not_sent {g : Gate ε} (hsent : g.sent = false)
    (hphase : ∀ x epoch keyed era, g.phase ≠ .checked x epoch keyed era) : Closed g where
  sent := hsent
  checked x epoch keyed era h := absurd h (hphase x epoch keyed era)

/-- Every gate is closed at first, and untouched. -/
theorem Starts.start (zero source : ε) : Starts (gates zero source).start where
  closed _ _ := .of_not_sent rfl (by simp [gates])
  log := logged_nil

/-- One gate changes and nothing passes. -/
theorem Starts.set (hstarts : Starts s) {c : Nat} {g : Gate ε} (keyed : ε)
    (hg : Untouched s c → Closed g) : Starts { s.set c g with keyed } where
  closed c' huntouched := by
    by_cases hc : c' = c
    · subst hc
      simpa only [Gates.set, Function.update_self] using hg huntouched
    · simpa only [Gates.set, Function.update_of_ne hc] using hstarts.closed c' huntouched
  log := hstarts.log

/-- A closed gate that reads the epochs stays so: what it holds is a key, or the
    epoch is not known yet. -/
theorem Starts.check (hstarts : Starts s) {c : Nat} {x : Item} (hphase : (s.gate c).phase = .holding x)
    (hunkeyed : Unkeyed s (.check c)) :
    Starts (s.set c { s.gate c with phase := .checked x s.source (s.keyed = s.source) s.era }) := by
  refine hstarts.set s.keyed fun huntouched => ?_
  have hsent := (hstarts.closed c huntouched).sent
  refine ⟨hsent, fun y epoch keyed era hchecked hplain => ?_⟩
  cases hchecked
  unfold Gate.sentIn
  split
  · exact hsent
  · rename_i hepoch
    exact decide_eq_false (hunkeyed huntouched hepoch x hphase hplain)

/-- What goes through a gate first found it closed, so it is a key. A gate that is
    open had something go through before. -/
theorem Starts.through (hstarts : Starts s) {c : Nat} {x : Item} {epoch : ε} {keyed : Bool} {era : Nat}
    (hphase : (s.gate c).phase = .checked x epoch keyed era) (hlets : (s.gate c).lets x epoch keyed = true)
    (phase : Phase ε) : Starts (s.through c x epoch keyed era phase) where
  closed c' huntouched := by
    have hc : c' ≠ c := fun h => huntouched _ List.mem_cons_self h.symm
    simp only [Gates.through, Gates.set, Function.update_of_ne hc]
    exact hstarts.closed c' fun p hp => huntouched p (List.mem_cons_of_mem _ hp)
  log := by
    refine logged_cons.mpr ⟨?_, hstarts.log⟩
    by_cases huntouched : Untouched s c
    · left
      cases hkey : x.key with
      | true => rfl
      | false =>
        have hclosed := (hstarts.closed c huntouched).checked x epoch keyed era hphase hkey
        rw [Gate.lets, hclosed, hkey] at hlets
        cases hlets
    · right
      unfold Untouched at huntouched
      push Not at huntouched
      exact huntouched

/-- One case for each move. Only reading the epochs needs the condition: it is there
    that a gate may be opened by what another gate let through. -/
theorem Starts.step (hstarts : Starts s) {m : Move ε} {t : Gates ε} (hunkeyed : Unkeyed s m)
    (hstep : s.step zero m = some t) : Starts t := by
  cases Gates.step_inv hstep with
  | restart => exact ⟨hstarts.closed, hstarts.log⟩
  | opened | wait => exact hstarts.set s.keyed fun _ => .of_not_sent rfl (by simp)
  | @hold c => exact hstarts.set s.keyed fun huntouched => .of_not_sent (hstarts.closed c huntouched).sent (by simp)
  | check hphase => exact hstarts.check hphase hunkeyed
  | pass hphase hlets | refuse hphase hlets => exact hstarts.through hphase hlets _
  | drop => exact hstarts.set zero fun _ => .of_not_sent rfl (by simp)

/-- In a run that meets the condition the first item to go through a gate is a key.
    The gates take their turns in any order, and restarts may come at any time, with
    any epoch. -/
theorem startsOnKey_of_reach {source : ε} {s : Gates ε}
    (hreach : (gates zero source).Reach Unkeyed s) : StartsOnKey s.log := by
  refine (hreach.invariant (P := Starts) (.start zero source) ?_).log
  exact fun _ _ _ _ hunkeyed hstep hstarts => hstarts.step hunkeyed hstep

end gating
