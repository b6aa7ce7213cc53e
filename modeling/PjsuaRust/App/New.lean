import PjsuaRust.App.Singleton

open transition

namespace pjsua_rust.pjsua_app

/-- What the PJSUA calls of one `new` return. -/
structure Statuses where
  pjsua_create : Int := 0
  pjsua_init : Int := 0
  pjsua_set_null_snd_dev : Int := 0
  pjsua_start : Int := 0
deriving DecidableEq, Repr

/-- How a call of `new` ends: with the app, with an error, or with a panic out of
    `PjString::new`. -/
inductive NewResult where
  | Ok
  | Err (err : PjError)
  | unwound
deriving DecidableEq, Repr

/-- `PjsuaApp::new` from its call to its end, with nothing in between. The sender
    is named by the call that makes it, as in the steps of a process. -/
def PjsuaApp.new (s : Process) (tx : Nat) (config : PjsuaConfig) (st : Statuses) : NewResult × Process :=
  if s.initialized then (.Err .AlreadyInitialized, s)
  else
    let s := { s with initialized := true, event_tx := some tx }
    if st.pjsua_create ≠ 0 then (.Err (.Pjsip st.pjsua_create), { s with initialized := false })
    else
      let s := { s with created := some tx }
      let destroyed := { s with created := none, initialized := false }
      if !config.converts then (.unwound, s)
      else if st.pjsua_init ≠ 0 then (.Err (.Pjsip st.pjsua_init), destroyed)
      else if config.null_audio && st.pjsua_set_null_snd_dev ≠ 0 then
        (.Err (.Pjsip st.pjsua_set_null_snd_dev), destroyed)
      else if st.pjsua_start ≠ 0 then (.Err (.Pjsip st.pjsua_start), destroyed)
      else (.Ok, s)

/-- Where a call that has ended stands among the steps of a process. -/
def NewResult.phase : NewResult → Phase
  | .Ok => .live
  | .Err err => .returned err
  | .unwound => .unwound

theorem Process.set_set (s : Process) (i : Nat) (p q : Phase) : (s.set i p).set i q = s.set i q := by
  simp only [Process.set, Function.update_idem]

theorem Process.set_apply (s : Process) (i j : Nat) (p : Phase) (effect : Effect) :
    (s.set i p).apply j effect = (s.apply j effect).set i p := by
  cases effect <;> rfl

/-- The steps of one call alone lead from a phase to a state. -/
def Advances (s : Process) (i : Nat) (p : Phase) (t : Process) : Prop :=
  ∃ statuses : List Int, process.exec (s.set i p) (statuses.map (.advance i)) = some t

theorem Advances.done (s : Process) (i : Nat) (p : Phase) : Advances s i p (s.set i p) := ⟨[], rfl⟩

/-- One more step of the call comes first. -/
theorem Advances.step {s t : Process} {i : Nat} {p q : Phase} {effect : Effect} (status : Int)
    (hadvance : p.advance status = some (q, effect)) (hrest : Advances (s.apply i effect) i q t) :
    Advances s i p t := by
  obtain ⟨statuses, hexec⟩ := hrest
  refine ⟨status :: statuses, ?_⟩
  rw [List.map_cons, Machine.exec_cons]
  simp only [process, Process.step, Process.set_inst_self, hadvance, Option.bind_some, Process.set_apply,
    Process.set_set]
  exact hexec

/-- A call of `new` that has failed destroys PJSUA and resets the flag. -/
theorem Advances.failing (s : Process) (i : Nat) (err : Int) :
    Advances s i (.failing err .pjsua_destroy)
      (Process.set { s with created := none, initialized := false } i (.returned (.Pjsip err))) := by
  apply Advances.step 0 rfl
  apply Advances.step 0 rfl
  apply Advances.step 0 rfl
  exact .done _ i _

/-- Once the flag is set, the steps of `Phase.advance` are those of `new`, with the
    statuses that its calls come to. One case for each place where `new` can leave
    off, in the order of the source. -/
theorem advances_new {s : Process} (hfree : s.initialized = false) (i : Nat) (config : PjsuaConfig)
    (st : Statuses) :
    Advances { s with initialized := true } i (.starting config .set_event_sender)
      ((PjsuaApp.new s i config st).2.set i (PjsuaApp.new s i config st).1.phase) := by
  unfold PjsuaApp.new
  rw [if_neg (by rw [hfree]; exact Bool.false_ne_true)]
  dsimp only
  apply Advances.step 0 rfl
  apply Advances.step 0 rfl
  by_cases hcreate : st.pjsua_create ≠ 0
  · rw [if_pos hcreate]
    refine .step st.pjsua_create (if_pos hcreate) ?_
    apply Advances.step 0 rfl
    exact .done _ i _
  rw [if_neg hcreate]
  refine .step st.pjsua_create (if_neg hcreate) ?_
  cases hconverts : config.converts with
  | false =>
    refine .step 0 (if_neg (by rw [hconverts]; exact Bool.false_ne_true)) ?_
    exact .done _ i _
  | true =>
    rw [if_neg (by decide)]
    refine .step 0 (if_pos hconverts) ?_
    by_cases hinit : st.pjsua_init ≠ 0
    · rw [if_pos hinit]
      refine .step st.pjsua_init (if_pos hinit) ?_
      exact .failing _ i st.pjsua_init
    rw [if_neg hinit]
    have hstart (s' : Process) :
        let result := if st.pjsua_start ≠ 0 then
            (NewResult.Err (.Pjsip st.pjsua_start), { s' with created := none, initialized := false })
          else (.Ok, s')
        Advances s' i (.starting config .pjsua_start) (result.2.set i result.1.phase) := by
      dsimp only
      by_cases hstart : st.pjsua_start ≠ 0
      · rw [if_pos hstart]
        refine .step st.pjsua_start (if_pos hstart) ?_
        exact .failing s' i st.pjsua_start
      · rw [if_neg hstart]
        refine .step st.pjsua_start (if_neg hstart) ?_
        apply Advances.step 0 rfl
        exact .done s' i _
    cases hnull : config.null_audio with
    | false =>
      refine .step st.pjsua_init ((if_neg hinit).trans (if_neg (by rw [hnull]; exact Bool.false_ne_true))) ?_
      exact hstart _
    | true =>
      refine .step st.pjsua_init ((if_neg hinit).trans (if_pos hnull)) ?_
      by_cases hnull_snd : st.pjsua_set_null_snd_dev ≠ 0
      · rw [Bool.true_and, if_pos (decide_eq_true hnull_snd)]
        refine .step st.pjsua_set_null_snd_dev (if_pos hnull_snd) ?_
        exact .failing _ i st.pjsua_set_null_snd_dev
      · rw [Bool.true_and, if_neg (by simpa using hnull_snd)]
        refine .step st.pjsua_set_null_snd_dev (if_neg hnull_snd) ?_
        exact hstart _

/-- The steps of one `new`, taken one after the other, are `PjsuaApp::new`. So what
    is proved of the function holds of the call in the process, where no other
    thread comes in between. -/
theorem exec_new (s : Process) {i : Nat} (habsent : s.inst i = .absent) (config : PjsuaConfig) (st : Statuses) :
    ∃ statuses : List Int, process.exec s (.new i config :: statuses.map (.advance i)) =
      some ((PjsuaApp.new s i config st).2.set i (PjsuaApp.new s i config st).1.phase) := by
  cases htaken : s.initialized with
  | true =>
    refine ⟨[], ?_⟩
    rw [List.map_nil, Machine.exec_cons]
    simp only [process, Process.step, habsent, htaken, if_true, Option.bind_some, PjsuaApp.new]
    rfl
  | false =>
    obtain ⟨statuses, hexec⟩ := advances_new htaken i config st
    refine ⟨statuses, ?_⟩
    rw [Machine.exec_cons]
    simp only [process, Process.step, habsent, htaken, Bool.false_eq_true, if_false, Option.bind_some]
    exact hexec

/-- The statics, and for whom PJSUA exists, are as they were before a call of
    `new` that found them unused. -/
structure NoTrace (s t : Process) : Prop where
  initialized : t.initialized = false
  event_tx : t.event_tx = none
  created : t.created = s.created

/-- Every call that `new` makes succeeds, and every string it converts is free of
    null bytes. -/
structure Succeeds (config : PjsuaConfig) (st : Statuses) : Prop where
  pjsua_create : st.pjsua_create = 0
  converts : config.converts = true
  pjsua_init : st.pjsua_init = 0
  pjsua_set_null_snd_dev : config.null_audio = true → st.pjsua_set_null_snd_dev = 0
  pjsua_start : st.pjsua_start = 0

section

variable {s : Process} (hfree : s.initialized = false) (tx : Nat) (config : PjsuaConfig) (st : Statuses)
include hfree

/-- Whatever becomes of the call, its sender stays installed: it is set before the
    first call that can fail, and no failure path takes it out. -/
theorem PjsuaApp.new_event_tx : (PjsuaApp.new s tx config st).2.event_tx = some tx := by
  unfold PjsuaApp.new
  rw [if_neg (by rw [hfree]; exact Bool.false_ne_true)]
  dsimp only
  split
  · rfl
  split
  · rfl
  split
  · rfl
  split
  · rfl
  split <;> rfl

/-- The call returns an app exactly where none of its calls fails and every string
    converts. -/
theorem PjsuaApp.new_ok_iff : (PjsuaApp.new s tx config st).1 = .Ok ↔ Succeeds config st := by
  unfold PjsuaApp.new
  rw [if_neg (by rw [hfree]; exact Bool.false_ne_true)]
  dsimp only
  constructor
  · intro hok
    split at hok
    · cases hok
    rename_i hcreate
    split at hok
    · cases hok
    rename_i hconverts
    split at hok
    · cases hok
    rename_i hinit
    split at hok
    · cases hok
    rename_i hnull
    split at hok
    · cases hok
    rename_i hstart
    refine ⟨not_not.mp hcreate, by simpa using hconverts, not_not.mp hinit, fun hdev => ?_, not_not.mp hstart⟩
    simpa [hdev] using hnull
  · rintro ⟨hcreate, hconverts, hinit, hnull, hstart⟩
    have hdev : ¬ (config.null_audio && decide (st.pjsua_set_null_snd_dev ≠ 0)) = true := by simpa using hnull
    rw [if_neg (not_not.mpr hcreate), hconverts, if_neg (by decide), if_neg (not_not.mpr hinit), if_neg hdev,
      if_neg (not_not.mpr hstart)]

/-- A panic leaves the flag set, and PJSUA created: no later `new` succeeds,
    although no app holds the library. -/
theorem PjsuaApp.new_unwound (hunwound : (PjsuaApp.new s tx config st).1 = .unwound) :
    (PjsuaApp.new s tx config st).2.initialized = true ∧ (PjsuaApp.new s tx config st).2.created = some tx := by
  unfold PjsuaApp.new at hunwound ⊢
  rw [if_neg (by rw [hfree]; exact Bool.false_ne_true)] at hunwound ⊢
  dsimp only at hunwound ⊢
  split at hunwound
  · cases hunwound
  rename_i hcreate
  split at hunwound
  · rename_i hconverts
    rw [if_neg hcreate, if_pos hconverts]
    exact ⟨rfl, rfl⟩
  split at hunwound
  · cases hunwound
  split at hunwound
  · cases hunwound
  split at hunwound <;> cases hunwound

/-- A call of `new` leaves no trace unless it succeeds exactly where it cannot but
    succeed. The configuration and the status of every call it makes are arbitrary,
    and so is the process, as long as the flag is free. A failing call that got past
    the flag always leaves its sender installed. -/
theorem new_leaves_no_trace_iff :
    ((PjsuaApp.new s tx config st).1 ≠ .Ok → NoTrace s (PjsuaApp.new s tx config st).2) ↔ Succeeds config st := by
  rw [← PjsuaApp.new_ok_iff hfree tx config st]
  constructor
  · intro hclaim
    by_contra hfailed
    have hempty := (hclaim hfailed).event_tx
    rw [PjsuaApp.new_event_tx hfree tx config st] at hempty
    cases hempty
  · exact fun hok hfailed => absurd hok hfailed

end

/-- Where PJSUA cannot be created. -/
theorem new_leaves_no_trace_iff_create_fails :
    ((PjsuaApp.new process.start 0 {} { pjsua_create := 70001 }).1 ≠ .Ok →
      NoTrace process.start (PjsuaApp.new process.start 0 {} { pjsua_create := 70001 }).2) ↔
      Succeeds {} { pjsua_create := 70001 } :=
  new_leaves_no_trace_iff rfl 0 {} { pjsua_create := 70001 }

/-- The sender of a call that failed to create PJSUA is still installed, although
    nothing but the flag was touched before it. -/
theorem not_new_leaves_no_trace :
    ¬ ∀ (s : Process) (tx : Nat) (config : PjsuaConfig) (st : Statuses),
      s.initialized = false → s.event_tx = none → (PjsuaApp.new s tx config st).1 ≠ .Ok →
      NoTrace s (PjsuaApp.new s tx config st).2 := by
  intro hclaim
  have hempty := (hclaim process.start 0 {} { pjsua_create := 70001 } rfl rfl (by decide)).event_tx
  cases hempty

end pjsua_rust.pjsua_app
