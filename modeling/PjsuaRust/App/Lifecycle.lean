import PjsuaRust.Transition.Machine

open transition

namespace pjsua_rust.pjsua_app

inductive PjError where
  | Pjsip (status : Int)
  | AlreadyInitialized
deriving DecidableEq, Repr

/-- What decides the course of `PjsuaApp::new`: the strings it converts, and
    whether it sets the null sound device. -/
structure PjsuaConfig where
  user_agent : Option (List Char) := none
  nameservers : List (List Char) := []
  null_audio : Bool := true
deriving DecidableEq, Repr

def MAX_NAMESERVERS : Nat := 4

/-- Whether `PjString::new` takes a string: it panics at a null byte. -/
def pj_string_ok (s : List Char) : Bool := !s.contains '\x00'

/-- No conversion of a string unwinds out of `new`. -/
def PjsuaConfig.converts (config : PjsuaConfig) : Bool :=
  (config.user_agent.all pj_string_ok) && (config.nameservers.take MAX_NAMESERVERS).all pj_string_ok

/-- The next step of `new`, once it has set the flag. Inside `pjsua_create` it is
    `pjsua_create_returns`. -/
inductive NewStep where
  | set_event_sender
  | pjsua_create
  | pjsua_create_returns
  | convert_strings
  | pjsua_init
  | pjsua_set_null_snd_dev
  | pjsua_start
  | register_trace_module
deriving DecidableEq, Repr

/-- The next step of `new` once a call has failed. -/
inductive FailStep where
  | pjsua_destroy
  | pjsua_destroy_returns
  | reset
deriving DecidableEq, Repr

/-- The next step of `drop`. -/
inductive DropStep where
  | pjsua_stop_worker_threads
  | unregister_trace_module
  | clear_event_sender
  | pjsua_destroy
  | pjsua_destroy_returns
  | reset
deriving DecidableEq, Repr

/-- Where one call of `new` has got, with the app it returned: not called yet, on
    its way, failing with a status, returned with an error, unwound with a panic,
    or with an app that is live, being dropped, or gone. -/
inductive Phase where
  | absent
  | starting (config : PjsuaConfig) (next : NewStep)
  | failing (status : Int) (next : FailStep)
  | returned (err : PjError)
  | unwound
  | live
  | dropping (next : DropStep)
  | gone
deriving DecidableEq, Repr

/-- What a step does to the statics, and to PJSUA. -/
inductive Effect where
  | none
  | set_event_sender
  | created
  | clear_event_sender
  | destroyed
  | reset
deriving DecidableEq, Repr

/-- One step of a call of `new` or of a drop, given the status its PJSUA call
    returns. -/
def Phase.advance (p : Phase) (status : Int) : Option (Phase × Effect) :=
  match p with
  | .starting config .set_event_sender => some (.starting config .pjsua_create, .set_event_sender)
  | .starting config .pjsua_create => some (.starting config .pjsua_create_returns, .none)
  | .starting config .pjsua_create_returns =>
    if status ≠ 0 then some (.failing status .reset, .none)
    else some (.starting config .convert_strings, .created)
  | .starting config .convert_strings =>
    if config.converts then some (.starting config .pjsua_init, .none) else some (.unwound, .none)
  | .starting config .pjsua_init =>
    if status ≠ 0 then some (.failing status .pjsua_destroy, .none)
    else if config.null_audio then some (.starting config .pjsua_set_null_snd_dev, .none)
    else some (.starting config .pjsua_start, .none)
  | .starting config .pjsua_set_null_snd_dev =>
    if status ≠ 0 then some (.failing status .pjsua_destroy, .none)
    else some (.starting config .pjsua_start, .none)
  | .starting config .pjsua_start =>
    if status ≠ 0 then some (.failing status .pjsua_destroy, .none)
    else some (.starting config .register_trace_module, .none)
  -- A failed registration is only logged.
  | .starting _ .register_trace_module => some (.live, .none)
  | .failing err .pjsua_destroy => some (.failing err .pjsua_destroy_returns, .none)
  | .failing err .pjsua_destroy_returns => some (.failing err .reset, .destroyed)
  | .failing err .reset => some (.returned (.Pjsip err), .reset)
  | .dropping .pjsua_stop_worker_threads => some (.dropping .unregister_trace_module, .none)
  | .dropping .unregister_trace_module => some (.dropping .clear_event_sender, .none)
  | .dropping .clear_event_sender => some (.dropping .pjsua_destroy, .clear_event_sender)
  | .dropping .pjsua_destroy => some (.dropping .pjsua_destroy_returns, .none)
  | .dropping .pjsua_destroy_returns => some (.dropping .reset, .destroyed)
  | .dropping .reset => some (.gone, .reset)
  | .absent | .returned _ | .unwound | .live | .gone => .none

/-- The process: the statics `INITIALIZED` and `EVENT_TX`, for whom PJSUA exists,
    and every call of `new` there is, on whatever thread. A sender is named by
    the call of `new` that made it. -/
structure Process where
  initialized : Bool
  event_tx : Option Nat
  created : Option Nat
  inst : Nat → Phase

inductive ProcessOp where
  | new (i : Nat) (config : PjsuaConfig)
  | advance (i : Nat) (status : Int)
  | drop (i : Nat)

def Process.set (s : Process) (i : Nat) (p : Phase) : Process :=
  { s with inst := Function.update s.inst i p }

def Process.apply (s : Process) (i : Nat) : Effect → Process
  | .none => s
  | .set_event_sender => { s with event_tx := some i }
  | .created => { s with created := some i }
  | .clear_event_sender => { s with event_tx := none }
  | .destroyed => { s with created := none }
  | .reset => { s with initialized := false }

/-- One atomic step. `new` begins with the swap of the flag. -/
def Process.step (s : Process) : ProcessOp → Option Process
  | .new i config =>
    match s.inst i with
    | .absent =>
      if s.initialized then some (s.set i (.returned .AlreadyInitialized))
      else some { s.set i (.starting config .set_event_sender) with initialized := true }
    | _ => none
  | .advance i status =>
    match (s.inst i).advance status with
    | none => none
    | some (p, effect) => some ((s.apply i effect).set i p)
  | .drop i =>
    match s.inst i with
    | .live => some (s.set i (.dropping .pjsua_stop_worker_threads))
    | _ => none

/-- Everything one step can do. -/
inductive ProcessStep (s : Process) : ProcessOp → Process → Prop where
  | refused {i : Nat} {config : PjsuaConfig} (habsent : s.inst i = .absent) (htaken : s.initialized = true) :
      ProcessStep s (.new i config) (s.set i (.returned .AlreadyInitialized))
  | started {i : Nat} {config : PjsuaConfig} (habsent : s.inst i = .absent) (hfree : s.initialized = false) :
      ProcessStep s (.new i config) { s.set i (.starting config .set_event_sender) with initialized := true }
  | advance {i : Nat} {status : Int} {p : Phase} {effect : Effect}
      (hadvance : (s.inst i).advance status = some (p, effect)) :
      ProcessStep s (.advance i status) ((s.apply i effect).set i p)
  | drop {i : Nat} (hlive : s.inst i = .live) :
      ProcessStep s (.drop i) (s.set i (.dropping .pjsua_stop_worker_threads))

/-- The inversion of `Process.step`: its branches, with the guard of each. -/
theorem Process.step_inv {s t : Process} {op : ProcessOp} (hstep : s.step op = some t) : ProcessStep s op t := by
  cases op with
  | new i config =>
    simp only [Process.step] at hstep
    split at hstep
    · rename_i habsent
      split at hstep
      · rename_i htaken
        cases hstep
        exact .refused habsent htaken
      · rename_i hfree
        cases hstep
        exact .started habsent (Bool.eq_false_of_not_eq_true hfree)
    · cases hstep
  | advance i status =>
    simp only [Process.step] at hstep
    split at hstep
    · cases hstep
    · rename_i hadvance
      cases hstep
      exact .advance hadvance
  | drop i =>
    simp only [Process.step] at hstep
    split at hstep
    · rename_i hlive
      cases hstep
      exact .drop hlive
    · cases hstep

/-- Nothing has used the crate yet. -/
def process : Machine Process ProcessOp where
  start := { initialized := false, event_tx := none, created := none, inst := fun _ => .absent }
  step := Process.step

end pjsua_rust.pjsua_app
