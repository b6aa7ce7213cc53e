import Mathlib

namespace transition

variable {E : Type} {P Q : E → List E → Prop}

/-- Every entry of a log stands in the relation `P` to the entries before it.
    Logs are kept newest first, so an entry's past is the tail after it. -/
def Logged (P : E → List E → Prop) (log : List E) : Prop :=
  ∀ e past, e :: past <:+ log → P e past

theorem logged_nil : Logged P [] := by
  intro e past hsuffix
  simp at hsuffix

/-- A log is all right if its newest entry is, against what was logged before it,
    and the rest was already. -/
theorem logged_cons {e : E} {log : List E} :
    Logged P (e :: log) ↔ P e log ∧ Logged P log := by
  constructor
  · intro h
    exact ⟨h e log (List.suffix_refl _), fun e' past hsuffix =>
      h e' past (hsuffix.trans (List.suffix_cons e log))⟩
  · rintro ⟨hhead, htail⟩ e' past hsuffix
    rcases List.suffix_cons_iff.mp hsuffix with heq | hsuffix
    · cases heq
      exact hhead
    · exact htail e' past hsuffix

/-- Some entry satisfying `q` was logged, with no entry satisfying `r` since. -/
def Since (q r : E → Prop) (log : List E) : Prop :=
  ∃ recent e past, log = recent ++ e :: past ∧ q e ∧ ∀ x ∈ recent, ¬ r x

/-- The newest entry is one with `q`, or it is none with `r` and the rest of the log
    has such a one. -/
theorem since_cons {q r : E → Prop} {e : E} {log : List E} :
    Since q r (e :: log) ↔ q e ∨ (¬ r e ∧ Since q r log) := by
  constructor
  · rintro ⟨recent, e', past, heq, hq, hrecent⟩
    cases recent with
    | nil =>
      cases heq
      exact .inl hq
    | cons x recent =>
      cases heq
      exact .inr ⟨hrecent _ (by simp), recent, e', past, rfl, hq, fun y hy => hrecent y (by simp [hy])⟩
  · rintro (hq | ⟨hr, recent, e', past, rfl, hq, hrecent⟩)
    · exact ⟨[], e, log, rfl, hq, by simp⟩
    · refine ⟨e :: recent, e', past, rfl, hq, ?_⟩
      intro x hx
      rcases List.mem_cons.mp hx with rfl | hx
      · exact hr
      · exact hrecent x hx

@[simp] theorem not_since_nil {q r : E → Prop} : ¬ Since q r [] := by
  rintro ⟨recent, e, past, heq, -⟩
  simp at heq

/-- Further entries that are none with `r` change nothing. -/
theorem Since.append {q r : E → Prop} {recent log : List E} (h : Since q r log)
    (hrecent : ∀ x ∈ recent, ¬ r x) : Since q r (recent ++ log) := by
  induction recent with
  | nil => exact h
  | cons x recent ih =>
    exact since_cons.mpr (.inr ⟨hrecent x (by simp), ih fun y hy => hrecent y (by simp [hy])⟩)

/-- The entries with `p` are the newest ones. -/
def Latest (p : E → Prop) (log : List E) : Prop :=
  ∃ recent past, log = recent ++ past ∧ (∀ x ∈ recent, p x) ∧ ∀ x ∈ past, ¬ p x

/-- The entries with `p` were logged one right after the other. -/
def Together (p : E → Prop) (log : List E) : Prop :=
  ∃ recent past, log = recent ++ past ∧ (∀ x ∈ recent, ¬ p x) ∧ Latest p past

section Together

variable {p : E → Prop} {e : E} {log : List E}

theorem latest_of_none (hnone : ∀ x ∈ log, ¬ p x) : Latest p log :=
  ⟨[], log, rfl, by simp, hnone⟩

theorem Latest.cons (h : Latest p log) (he : p e) : Latest p (e :: log) := by
  obtain ⟨recent, past, rfl, hrecent, hpast⟩ := h
  exact ⟨e :: recent, past, rfl, List.forall_mem_cons.mpr ⟨he, hrecent⟩, hpast⟩

/-- Entries that are the newest ones came one right after the other. -/
theorem Latest.together (h : Latest p log) : Together p log :=
  ⟨[], log, rfl, by simp, h⟩

/-- An entry without `p` does not come between those with it. -/
theorem Together.cons (h : Together p log) (he : ¬ p e) : Together p (e :: log) := by
  obtain ⟨recent, past, rfl, hrecent, hpast⟩ := h
  exact ⟨e :: recent, past, rfl, List.forall_mem_cons.mpr ⟨he, hrecent⟩, hpast⟩

end Together

end transition
