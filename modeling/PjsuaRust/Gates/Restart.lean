import PjsuaRust.Gates.Basic

open transition

namespace gating

variable {ε : Type}

/-- A key from the era `k` or later went through. -/
def Released (k : Nat) (log : List Passed) : Prop := ∃ p ∈ log, p.item.key = true ∧ k ≤ p.item.era

/-- Whatever goes through after reading the epochs in some era is a key from
    that era or later, or comes after one. -/
def KeyFirst (log : List Passed) : Prop :=
  Logged (fun p past => p.item.key = true ∧ p.read ≤ p.item.era ∨ Released p.read past) log

/-- No item from before an era satisfied the wait for a key of that era. -/
def NoStale (log : List Passed) : Prop := ∀ p ∈ log, ∀ era ∈ p.satisfies, era ≤ p.item.era

/-- A key that went through an era ago still did after anything else. -/
theorem Released.cons {k : Nat} {log : List Passed} (h : Released k log) (p : Passed) :
    Released k (p :: log) := by
  obtain ⟨q, hq, hkey⟩ := h
  exact ⟨q, List.mem_cons_of_mem _ hq, hkey⟩

variable [DecidableEq ε]

/-- A gate goes on with a key it read the epochs for: the key is from the era of
    that read, or the epoch it makes known is not the one of the source, or known
    already. -/
def Fresh (s : Gates ε) (c : Nat) : Prop :=
  ∀ x epoch keyed era, (s.gate c).phase = .checked x epoch keyed era → x.key = true →
    era ≤ x.era ∨ epoch ≠ s.source ∨ s.keyed = epoch

/-- The condition on a move. A restart takes an epoch that is not the one of the
    latest key, and that no gate is open in or about to open in. The epochs are
    read with no key from before the latest restart in hand, unless the gate is
    open in the epoch or the key too large. Such a key is then not the one that
    makes the epoch known. -/
def Timely (zero : ε) (s : Gates ε) : Move ε → Prop
  | .restart epoch => epoch ≠ zero ∧ epoch ≠ s.keyed ∧ ∀ c, ((s.gate c).epoch = epoch → (s.gate c).sent = false) ∧
      ∀ x e keyed era, (s.gate c).phase = .checked x e keyed era → e = epoch → (s.gate c).lets x e keyed = false
  | .check c => ∀ x, (s.gate c).phase = .holding x → x.key = true →
      s.era ≤ x.era ∨ (s.gate c).sentIn s.source (s.keyed = s.source) = true ∨ x.oversize = true
  | .pass c => Fresh s c
  | .refuse c => Fresh s c
  | _ => True

/-- What a gate is about to let through, having read the epochs. -/
structure Covered (s : Gates ε) (log : List Passed) (g : Gate ε) (x : Item) (epoch : ε) (keyed : Bool)
    (era : Nat) : Prop where
  era_eq : epoch = s.source → era = s.era
  released : x.key = true ∧ era ≤ x.era ∨ Released era log
  opens : x.key = true → g.sentIn epoch keyed = false → era ≤ x.era

/-- What one gate knows of the source is covered by a key that went through, and
    so is what it is about to let through. -/
structure GateInv (s : Gates ε) (log : List Passed) (g : Gate ε) : Prop where
  open_of_key : g.epoch = s.source → g.sent = true → Released s.era log
  checked : ∀ x epoch keyed era, g.phase = .checked x epoch keyed era → g.lets x epoch keyed = true →
    Covered s log g x epoch keyed era

structure Inv (zero : ε) (s : Gates ε) : Prop where
  source : s.source ≠ zero
  keyed : s.keyed = s.source → Released s.era s.log
  gate : ∀ c, GateInv s s.log (s.gate c)
  log : KeyFirst s.log
  stale : NoStale s.log

variable {zero : ε} {s : Gates ε}

/-- No gate is open at first, and no epoch known, as long as the first epoch is not
    the one that stands for none. -/
theorem Inv.start {source : ε} (hne : source ≠ zero) : Inv zero (gates zero source).start where
  source := hne
  keyed h := absurd h.symm hne
  gate _ := ⟨fun h => absurd h.symm hne, fun _ _ _ _ h => by simp [gates] at h⟩
  log := logged_nil
  stale _ hp := by cases hp

theorem Covered.cons {g : Gate ε} {x : Item} {epoch : ε} {keyed : Bool} {era : Nat}
    (h : Covered s s.log g x epoch keyed era) (p : Passed) : Covered s (p :: s.log) g x epoch keyed era where
  era_eq := h.era_eq
  released := h.released.imp_right fun h => h.cons p
  opens := h.opens

theorem GateInv.cons {g : Gate ε} (h : GateInv s s.log g) (p : Passed) : GateInv s (p :: s.log) g where
  open_of_key hepoch hsent := (h.open_of_key hepoch hsent).cons p
  checked x epoch keyed era hphase hlets := (h.checked x epoch keyed era hphase hlets).cons p

/-- Only the source and its era count. -/
theorem GateInv.congr {t : Gates ε} {log : List Passed} {g : Gate ε} (h : GateInv s log g)
    (hsource : t.source = s.source) (hera : t.era = s.era) : GateInv t log g := by
  constructor
  · rw [hsource, hera]
    exact h.open_of_key
  · intro x epoch keyed era hphase hlets
    obtain ⟨hsame, hreleased, hopens⟩ := h.checked x epoch keyed era hphase hlets
    refine ⟨?_, hreleased, hopens⟩
    rw [hsource, hera]
    exact hsame

/-- A gate that is not open, and has read no epochs, knows nothing. -/
theorem GateInv.of_not_sent {log : List Passed} {g : Gate ε} (hsent : g.sent = false)
    (hphase : ∀ x epoch keyed era, g.phase ≠ .checked x epoch keyed era) : GateInv s log g where
  open_of_key _ h := by
    rw [hsent] at h
    cases h
  checked x epoch keyed era h := absurd h (hphase x epoch keyed era)

/-- One gate changes, and at most what it lets through is logged. The invariant is
    kept if the gate is still covered, and the epoch known only by a key that went
    through; the other gates need not be looked at. -/
theorem Inv.update (hinv : Inv zero s) {c : Nat} {g : Gate ε} {keyed : ε} {log : List Passed}
    (hlog : log = s.log ∨ ∃ p, log = p :: s.log) (hkeyfirst : KeyFirst log) (hstale : NoStale log)
    (hg : GateInv s log g) (hkeyed : keyed = s.source → Released s.era log) :
    Inv zero { s.set c g with keyed, log } where
  source := hinv.source
  keyed := hkeyed
  gate c' := by
    by_cases hc : c' = c
    · subst hc
      simp only [Gates.set, Function.update_self]
      exact hg.congr rfl rfl
    · simp only [Gates.set, Function.update_of_ne hc]
      have hother : GateInv s log (s.gate c') := by
        rcases hlog with rfl | ⟨p, rfl⟩
        · exact hinv.gate c'
        · exact (hinv.gate c').cons p
      exact hother.congr rfl rfl
  log := hkeyfirst
  stale := hstale

/-- One gate changes, and nothing goes through. -/
theorem Inv.set (hinv : Inv zero s) {c : Nat} {g : Gate ε} (hg : GateInv s s.log g) : Inv zero (s.set c g) :=
  hinv.update (.inl rfl) hinv.log hinv.stale hg hinv.keyed

/-- A restart takes an epoch that no gate is open in and that no key is known of, so
    nothing in it has to be covered yet. -/
theorem Inv.restart (hinv : Inv zero s) {epoch : ε} (htimely : Timely zero s (.restart epoch)) :
    Inv zero { s with source := epoch, era := s.era + 1 } where
  source := htimely.1
  keyed h := absurd h.symm htimely.2.1
  gate c := by
    obtain ⟨hclosed, hread⟩ := htimely.2.2 c
    constructor
    · intro hepoch hsent
      rw [hclosed hepoch] at hsent
      cases hsent
    · intro x e keyed era hphase hlets
      obtain ⟨-, hreleased, hopens⟩ := (hinv.gate c).checked x e keyed era hphase hlets
      refine ⟨fun hepoch => ?_, hreleased, hopens⟩
      rw [hread x e keyed era hphase hepoch] at hlets
      cases hlets
  log := hinv.log
  stale := hinv.stale

/-- A gate that is open in the epoch of the source, of its own or because a key
    made the epoch known, is covered by a key that went through. -/
theorem Inv.released_of_sentIn (hinv : Inv zero s) {c : Nat}
    (hsent : (s.gate c).sentIn s.source (s.keyed = s.source) = true) : Released s.era s.log := by
  unfold Gate.sentIn at hsent
  split at hsent
  · rename_i hepoch
    exact (hinv.gate c).open_of_key hepoch hsent
  · exact hinv.keyed (of_decide_eq_true hsent)

/-- A gate reads the epochs. If it is then open, a key went through in the era that
    it read, or it holds that key itself. -/
theorem Inv.check (hinv : Inv zero s) {c : Nat} {x : Item} (hphase : (s.gate c).phase = .holding x)
    (htimely : Timely zero s (.check c)) :
    Inv zero (s.set c { s.gate c with phase := .checked x s.source (s.keyed = s.source) s.era }) := by
  refine hinv.set ⟨(hinv.gate c).open_of_key, ?_⟩
  intro y epoch keyed era hchecked hlets
  cases hchecked
  simp only [Gate.lets, Bool.and_eq_true, Bool.or_eq_true, Bool.not_eq_true'] at hlets
  obtain ⟨hlets, hfits⟩ := hlets
  -- What is too large is not let through.
  have hcovers (hkey : x.key = true) :
      s.era ≤ x.era ∨ (s.gate c).sentIn s.source (s.keyed = s.source) = true := by
    rcases htimely x hphase hkey with hnew | hsent | hlarge
    · exact .inl hnew
    · exact .inr hsent
    · rw [hfits] at hlarge
      cases hlarge
  refine ⟨fun _ => rfl, ?_, fun hkey hclosed => ?_⟩
  · rcases hlets with hsent | hkey
    · exact .inr (hinv.released_of_sentIn hsent)
    · exact (hcovers hkey).imp (fun hnew => ⟨hkey, hnew⟩) hinv.released_of_sentIn
  · exact (hcovers hkey).resolve_right (ne_true_of_eq_false hclosed)

/-- An item that satisfies a wait is a key from the era of that wait, or from a later
    one. A gate that read the epoch of the source has read it in the source's era. -/
theorem Covered.satisfies {c : Nat} {x : Item} {epoch : ε} {keyed : Bool} {era : Nat}
    (hcovered : Covered s s.log (s.gate c) x epoch keyed era) (hfresh : Fresh s c)
    (hphase : (s.gate c).phase = .checked x epoch keyed era) {wait : Nat}
    (hsatisfies : wait ∈ s.satisfies c x epoch keyed era) : wait ≤ x.era := by
  have hera : (if epoch = s.source then s.era else era) = era := by
    split
    · rename_i hsource
      exact (hcovered.era_eq hsource).symm
    · rfl
  simp only [Gates.satisfies, hera, Option.mem_def, Option.ite_none_right_eq_some, Option.some.injEq, Bool.and_eq_true,
    Bool.or_eq_true, Bool.not_eq_true', decide_eq_true_eq] at hsatisfies
  obtain ⟨⟨hkey, hwaits⟩, rfl⟩ := hsatisfies
  rcases hwaits with hclosed | ⟨hsource, hunknown⟩
  · exact hcovered.opens hkey hclosed
  · exact (hfresh x epoch keyed era hphase hkey).resolve_right fun h =>
      h.elim (fun h => h hsource) fun h => hunknown h

/-- What goes through is itself the key that covers what follows it, or there
    was one. -/
theorem Inv.through (hinv : Inv zero s) {c : Nat} {x : Item} {epoch : ε} {keyed : Bool} {era : Nat}
    (hphase : (s.gate c).phase = .checked x epoch keyed era) (hlets : (s.gate c).lets x epoch keyed = true)
    (hfresh : Fresh s c) {phase : Phase ε} (hdone : ∀ x epoch keyed era, phase ≠ .checked x epoch keyed era) :
    Inv zero (s.through c x epoch keyed era phase) := by
  have hcovered := (hinv.gate c).checked x epoch keyed era hphase hlets
  have hreleased : Released era
      ({ gate := c, read := era, item := x, satisfies := s.satisfies c x epoch keyed era } :: s.log) := by
    rcases hcovered.released with ⟨hkey, hnew⟩ | hreleased
    · exact ⟨_, List.mem_cons_self, hkey, hnew⟩
    · exact hreleased.cons _
  refine hinv.update (.inr ⟨_, rfl⟩) (logged_cons.mpr ⟨hcovered.released, hinv.log⟩) ?_
    ⟨?_, fun y e k r h => absurd h (hdone y e k r)⟩ ?_
  · intro p hp wait hsatisfies
    rcases List.mem_cons.mp hp with rfl | hp
    · exact hcovered.satisfies hfresh hphase hsatisfies
    · exact hinv.stale p hp wait hsatisfies
  · intro hepoch _
    exact hcovered.era_eq hepoch ▸ hreleased
  · intro hkeyed
    split at hkeyed
    · exact hcovered.era_eq hkeyed ▸ hreleased
    · exact (hinv.keyed hkeyed).cons _

/-- A gate that drops its item closes, and so does the epoch for all others that are
    not open. -/
theorem Inv.drop (hinv : Inv zero s) (c : Nat) (epoch : ε) :
    Inv zero { s.set c { epoch, sent := false, phase := .idle } with keyed := zero } :=
  hinv.update (.inl rfl) hinv.log hinv.stale (.of_not_sent rfl (by simp)) fun h => absurd h.symm hinv.source

/-- Every timely move keeps what the gates know covered by keys that went
    through. -/
theorem Inv.step (hinv : Inv zero s) {m : Move ε} {t : Gates ε} (htimely : Timely zero s m)
    (hstep : s.step zero m = some t) : Inv zero t := by
  cases Gates.step_inv hstep with
  | restart => exact hinv.restart htimely
  | opened | wait => exact hinv.set (.of_not_sent rfl (by simp))
  | @hold c => exact hinv.set ⟨(hinv.gate c).open_of_key, by simp⟩
  | check hphase => exact hinv.check hphase htimely
  | pass hphase hlets | refuse hphase hlets => exact hinv.through hphase hlets htimely (by simp)
  | drop epoch => exact hinv.drop _ epoch

end gating
