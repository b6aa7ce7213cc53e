import PjsuaRust.Transition.Machine

namespace transition

namespace Machine

variable {S A O : Type} {m : Machine S A} {ok : S → A → Prop} {hidden : A → Bool} {out : S → A → Option O}
  {R : S → S → Prop} {s s' t : S} {as : List A}

/-- What a list of operations shows, as far as it can be taken. -/
def outputs (m : Machine S A) (out : S → A → Option O) : S → List A → List O
  | _, [] => []
  | s, a :: as => (m.step s a).elim [] fun t => (out s a).toList ++ outputs m out t as

/-- `R` relates a state to one that a run without the hidden operations is in. An
    operation that is not hidden can be taken there too and shows the same; a
    hidden one, where it is admitted, shows nothing and keeps to `R`. The run
    without the hidden operations may be able to take more. -/
structure Hides (m : Machine S A) (ok : S → A → Prop) (hidden : A → Bool) (out : S → A → Option O) (R : S → S → Prop) :
    Prop where
  step : ∀ s s' a t, R s s' → hidden a = false → m.step s a = some t → ∃ t', m.step s' a = some t' ∧ R t t'
  shows : ∀ s s' a, R s s' → hidden a = false → out s' a = out s a
  hidden : ∀ s s' a t, R s s' → hidden a = true → ok s a → m.step s a = some t → R t s' ∧ out s a = none

/-- A run can be taken without its hidden operations, and shows the same. The two
    runs need not go through the same states: they are related throughout, and
    related states show the same. -/
theorem Hides.erase (h : Hides m ok hidden out R) (hs : R s s') (hadmits : m.Admits ok s as)
    (hexec : m.exec s as = some t) :
    ∃ t', m.exec s' (as.filter (!hidden ·)) = some t' ∧ R t t' ∧
      m.outputs out s' (as.filter (!hidden ·)) = m.outputs out s as := by
  induction as generalizing s s' with
  | nil =>
    cases hexec
    exact ⟨s', rfl, hs, rfl⟩
  | cons a as ih =>
    rw [exec_cons] at hexec
    obtain ⟨u, hstep, hrest⟩ := Option.bind_eq_some_iff.mp hexec
    rw [outputs, hstep, Option.elim_some]
    cases ha : hidden a with
    | true =>
      obtain ⟨hu, hout⟩ := h.hidden s s' a u hs ha hadmits.1 hstep
      obtain ⟨t', hexec', ht, houtputs⟩ := ih hu (hadmits.2 u hstep) hrest
      rw [List.filter_cons_of_neg (by simp [ha]), hout]
      exact ⟨t', hexec', ht, houtputs⟩
    | false =>
      obtain ⟨u', hstep', hu⟩ := h.step s s' a u hs ha hstep
      obtain ⟨t', hexec', ht, houtputs⟩ := ih hu (hadmits.2 u hstep) hrest
      refine ⟨t', ?_, ht, ?_⟩
      · rw [List.filter_cons_of_pos (by simp [ha]), exec_cons, hstep', Option.bind_some, hexec']
      · rw [List.filter_cons_of_pos (by simp [ha]), outputs, hstep', Option.elim_some, h.shows s s' a hs ha, houtputs]

end Machine

end transition
