import PjsuaRust.Transition.Machine
import PjsuaRust.Transition.Log

open transition

namespace pjsua_rust.media_port

/-- The errors of these functions. The text PJSIP has for a status is left out. -/
inductive PjError where
  | Pjsip (status : Int) (message : Option String)
  | AlreadyInUse (resource : String)
deriving DecidableEq, Repr

def make_pj_error (status : Int) : PjError := .Pjsip status none

/-- What happens to a `pjmedia_port` and to the `PortContext` behind it. -/
inductive PortEvent where
  | used_port
  | used_context
  | trampoline_on_destroy
  | on_destroy
  | freed_context
  | freed_port
deriving DecidableEq, Repr

/-- What PJSUA and PJMEDIA have of one port: the numbers under which it is in the
    conference bridge, the removals that are queued there, and its reference
    count, which it has from the first time it is added. `pools` counts the pools
    made for it: those of `handed` were given to the caller of `conf_add_port`,
    and `released` has every release. `pdata` says whether the port still points
    to its context. -/
structure Pjmedia where
  slots : List Int := []
  removing : List Int := []
  grp_lock : Option Nat := none
  pools : Nat := 0
  handed : List Nat := []
  released : List Nat := []
  pdata : Bool := true
  log : List PortEvent := []
deriving DecidableEq, Repr

/-- Whose `on_destroy` a port has: that of a `CustomPort`, or PJMEDIA's own, which
    a `ToneGenerator` made from its pool. -/
inductive Kind where
  | CustomPort
  | ToneGenerator (pool : Nat)
deriving DecidableEq, Repr

/-- Frees the context, if the port still has one, and then the port. -/
def trampoline_on_destroy (pj : Pjmedia) : Pjmedia :=
  if pj.pdata then
    { pj with
      pdata := false
      log := .freed_port :: .freed_context :: .used_port :: .on_destroy :: .used_context :: .used_port ::
        .trampoline_on_destroy :: pj.log }
  else { pj with log := .freed_port :: .used_port :: .trampoline_on_destroy :: pj.log }

/-- `trampoline_get_frame` and `trampoline_put_frame`, up to the application's
    own function: both reach it through the port and its context. -/
def trampoline_frame (pj : Pjmedia) : Pjmedia := { pj with log := .used_context :: .used_port :: pj.log }

def Kind.on_destroy : Kind → Pjmedia → Pjmedia
  | .CustomPort => trampoline_on_destroy
  | .ToneGenerator _ => fun pj => pj

def Kind.frame : Kind → Pjmedia → Pjmedia
  | .CustomPort => trampoline_frame
  | .ToneGenerator _ => fun pj => pj

/-- The last reference to go calls `on_destroy`. -/
def pj_grp_lock_dec_ref (kind : Kind) (pj : Pjmedia) (count : Nat) : Pjmedia :=
  let pj := { pj with grp_lock := some (count - 1) }
  if count = 1 then kind.on_destroy pj else pj

/-- Gives up the owner's reference, or calls `on_destroy` where there is no
    count. -/
def pjmedia_port_destroy (kind : Kind) (pj : Pjmedia) : Pjmedia :=
  let pj := { pj with log := .used_port :: pj.log }
  match pj.grp_lock with
  | some count => pj_grp_lock_dec_ref kind pj count
  | none => kind.on_destroy pj

def pj_pool_release (pj : Pjmedia) (pool : Nat) : Pjmedia := { pj with released := pool :: pj.released }

/-- What the calls inside one `conf_add_port` return. -/
structure AddOutcome where
  pool_null : Bool := false
  status : Int := 0
  port_id : Int := 0
deriving DecidableEq, Repr

/-- The bridge takes a reference to the port, which starts with its owner's. -/
def conf_add_port (pj : Pjmedia) (out : AddOutcome) : Except PjError (Int × Nat) × Pjmedia :=
  if out.pool_null then (.error (.Pjsip (-1) (some "Failed to create pool for conf_add_port")), pj)
  else
    let pool := pj.pools
    let pj := { pj with pools := pj.pools + 1 }
    if out.status ≠ 0 then (.error (make_pj_error out.status), pj_pool_release pj pool)
    else
      (.ok (out.port_id, pool), { pj with
        slots := out.port_id :: pj.slots
        grp_lock := some (pj.grp_lock.getD 1 + 1)
        handed := pool :: pj.handed })

/-- A removal that succeeds is queued; the bridge keeps its reference. -/
def conf_remove_port (pj : Pjmedia) (port status : Int) : Except PjError Unit × Pjmedia :=
  if status ≠ 0 then (.error (make_pj_error status), pj)
  else (.ok (), { pj with slots := pj.slots.erase port, removing := port :: pj.removing })

/-- The audio thread carries out a queued removal. It reads the port's count, and
    gives up the bridge's reference. -/
def op_remove_port (kind : Kind) (pj : Pjmedia) (port : Int) : Pjmedia :=
  let pj := { pj with removing := pj.removing.erase port, log := .used_port :: pj.log }
  match pj.grp_lock with
  | some count => pj_grp_lock_dec_ref kind pj count
  | none => pj

/-- The fields that a `CustomPort` and a `ToneGenerator` keep about the bridge. -/
structure Member where
  conf_port : Option Int := none
  conf_pool : Option Nat := none
deriving DecidableEq, Repr

def Member.add_to_conference (self : Member) (pj : Pjmedia) (out : AddOutcome) :
    Except PjError Int × Member × Pjmedia :=
  if self.conf_port.isSome then (.error (.AlreadyInUse "conference port"), self, pj)
  else
    match conf_add_port pj out with
    | (.error e, pj) => (.error e, self, pj)
    | (.ok (port_id, pool), pj) => (.ok port_id, { conf_port := some port_id, conf_pool := some pool }, pj)

/-- `conf_pool.take()`, and the release of the pool. -/
def Member.release_conf_pool (self : Member) (pj : Pjmedia) : Member × Pjmedia :=
  match self.conf_pool with
  | some pool => ({ self with conf_pool := none }, pj_pool_release pj pool)
  | none => (self, pj)

/-- The port is taken out of its field before the call that may fail. -/
def Member.remove_from_conference (self : Member) (pj : Pjmedia) (status : Int) :
    Except PjError Unit × Member × Pjmedia :=
  match self.conf_port with
  | some port =>
    match conf_remove_port pj port status with
    | (.error e, pj) => (.error e, { self with conf_port := none }, pj)
    | (.ok (), pj) => (.ok (), { self with conf_port := none }.release_conf_pool pj)
  | none => (.ok (), self.release_conf_pool pj)

/-- What both drops begin with. The status of the removal is not looked at. -/
def Member.leave_conference (self : Member) (pj : Pjmedia) (status : Int) : Member × Pjmedia :=
  match self.conf_port with
  | some port => { self with conf_port := none }.release_conf_pool (conf_remove_port pj port status).2
  | none => self.release_conf_pool pj

def CustomPort.add_to_conference := Member.add_to_conference
def CustomPort.remove_from_conference := Member.remove_from_conference

def CustomPort.drop (self : Member) (pj : Pjmedia) (status : Int) : Member × Pjmedia :=
  let (self, pj) := self.leave_conference pj status
  (self, pjmedia_port_destroy .CustomPort pj)

def ToneGenerator.add_to_conference := Member.add_to_conference
def ToneGenerator.remove_from_conference := Member.remove_from_conference

def ToneGenerator.drop (pool : Nat) (self : Member) (pj : Pjmedia) (status : Int) : Member × Pjmedia :=
  let (self, pj) := self.leave_conference pj status
  (self, pj_pool_release (pjmedia_port_destroy (.ToneGenerator pool) pj) pool)

def Kind.add_to_conference : Kind → Member → Pjmedia → AddOutcome → Except PjError Int × Member × Pjmedia
  | .CustomPort => CustomPort.add_to_conference
  | .ToneGenerator _ => ToneGenerator.add_to_conference

def Kind.remove_from_conference : Kind → Member → Pjmedia → Int → Except PjError Unit × Member × Pjmedia
  | .CustomPort => CustomPort.remove_from_conference
  | .ToneGenerator _ => ToneGenerator.remove_from_conference

def Kind.drop : Kind → Member → Pjmedia → Int → Member × Pjmedia
  | .CustomPort => CustomPort.drop
  | .ToneGenerator pool => ToneGenerator.drop pool

/-- The two kinds of port do the same with the bridge. -/
theorem Kind.add_to_conference_eq (kind : Kind) : kind.add_to_conference = Member.add_to_conference := by
  cases kind <;> rfl

theorem Kind.remove_from_conference_eq (kind : Kind) :
    kind.remove_from_conference = Member.remove_from_conference := by
  cases kind <;> rfl

/-- A port and all there is of it elsewhere. -/
structure Conference where
  self : Member
  pj : Pjmedia
  dropped : Bool
deriving DecidableEq, Repr

inductive ConfOp where
  | add_to_conference (out : AddOutcome)
  | remove_from_conference (status : Int)
  | drop (status : Int)
  | op_remove_port (port : Int)
  | frame
deriving DecidableEq, Repr

/-- The owner's calls come before its drop. PJSUA gives a port it adds a number
    that it is not registered under, the bridge carries out the removals it has
    queued at any time and in any order, and calls for frames while it holds the
    port. -/
def Conference.step (kind : Kind) (s : Conference) : ConfOp → Option Conference
  | .add_to_conference out =>
    if s.dropped ∨ (out.status = 0 ∧ out.port_id ∈ s.pj.slots) then none
    else
      let (_, self, pj) := kind.add_to_conference s.self s.pj out
      some { s with self, pj }
  | .remove_from_conference status =>
    if s.dropped then none
    else
      let (_, self, pj) := kind.remove_from_conference s.self s.pj status
      some { s with self, pj }
  | .drop status =>
    if s.dropped then none
    else
      let (self, pj) := kind.drop s.self s.pj status
      some { self, pj, dropped := true }
  | .op_remove_port port =>
    if port ∈ s.pj.removing then some { s with pj := op_remove_port kind s.pj port } else none
  | .frame =>
    if s.pj.slots = [] ∧ s.pj.removing = [] then none else some { s with pj := kind.frame s.pj }

/-- The pool of a tone generator was made with it. -/
def Kind.pools : Kind → Nat
  | .CustomPort => 0
  | .ToneGenerator pool => pool + 1

def conference (kind : Kind) : Machine Conference ConfOp where
  start := { self := {}, pj := { pools := kind.pools }, dropped := false }
  step := Conference.step kind

/-- Everything one step can do. -/
inductive ConfStep (kind : Kind) (s : Conference) : ConfOp → Conference → Prop where
  | not_added {out : AddOutcome} (hlive : s.dropped = false) (hrefused : s.self.conf_port ≠ none ∨ out.pool_null = true) :
      ConfStep kind s (.add_to_conference out) s
  | add_failed {out : AddOutcome} (hlive : s.dropped = false) (hnone : s.self.conf_port = none)
      (hpool : out.pool_null = false) (hstatus : out.status ≠ 0) :
      ConfStep kind s (.add_to_conference out)
        { s with pj := pj_pool_release { s.pj with pools := s.pj.pools + 1 } s.pj.pools }
  | added {out : AddOutcome} (hlive : s.dropped = false) (hnone : s.self.conf_port = none)
      (hpool : out.pool_null = false) (hstatus : out.status = 0) (hfresh : out.port_id ∉ s.pj.slots) :
      ConfStep kind s (.add_to_conference out) { s with
        self := { conf_port := some out.port_id, conf_pool := some s.pj.pools }
        pj := { s.pj with
          slots := out.port_id :: s.pj.slots
          grp_lock := some (s.pj.grp_lock.getD 1 + 1)
          pools := s.pj.pools + 1
          handed := s.pj.pools :: s.pj.handed } }
  | remove_failed {port status : Int} (hlive : s.dropped = false) (hport : s.self.conf_port = some port)
      (hstatus : status ≠ 0) :
      ConfStep kind s (.remove_from_conference status) { s with self := { s.self with conf_port := none } }
  | removed {status : Int} (hlive : s.dropped = false) (hstatus : s.self.conf_port ≠ none → status = 0) :
      ConfStep kind s (.remove_from_conference status) { s with
        self := (s.self.leave_conference s.pj status).1
        pj := (s.self.leave_conference s.pj status).2 }
  | dropped {status : Int} (hlive : s.dropped = false) :
      ConfStep kind s (.drop status)
        { self := (kind.drop s.self s.pj status).1, pj := (kind.drop s.self s.pj status).2, dropped := true }
  | op_remove_port {port : Int} (hqueued : port ∈ s.pj.removing) :
      ConfStep kind s (.op_remove_port port) { s with pj := op_remove_port kind s.pj port }
  | frame (hheld : s.pj.slots ≠ [] ∨ s.pj.removing ≠ []) :
      ConfStep kind s .frame { s with pj := kind.frame s.pj }

/-- A removal that does not fail does what a drop begins with. -/
theorem Member.remove_from_conference_eq {self : Member} {pj : Pjmedia} {status : Int}
    (hstatus : self.conf_port ≠ none → status = 0) :
    self.remove_from_conference pj status = (.ok (), self.leave_conference pj status) := by
  unfold Member.remove_from_conference Member.leave_conference
  cases hport : self.conf_port with
  | none => rfl
  | some port =>
    obtain rfl := hstatus (by simp [hport])
    rfl

/-- What a step can be: no call comes after the drop, and only a queued removal is
    carried out. -/
theorem Conference.step_inv {kind : Kind} {s t : Conference} {op : ConfOp} (hstep : s.step kind op = some t) :
    ConfStep kind s op t := by
  cases op with
  | add_to_conference out =>
    simp only [Conference.step, kind.add_to_conference_eq, Member.add_to_conference, conf_add_port] at hstep
    split at hstep
    · cases hstep
    rename_i hguard
    obtain ⟨hlive, hfresh⟩ := not_or.mp hguard
    replace hlive := Bool.eq_false_of_not_eq_true hlive
    cases hport : s.self.conf_port with
    | some port =>
      simp only [hport, Option.isSome_some, if_true, Option.some.injEq] at hstep
      subst hstep
      exact .not_added hlive (.inl (by simp [hport]))
    | none =>
      simp only [hport, Option.isSome_none, Bool.false_eq_true, if_false] at hstep
      cases hpool : out.pool_null with
      | true =>
        simp only [hpool, if_true, Option.some.injEq] at hstep
        subst hstep
        exact .not_added hlive (.inr hpool)
      | false =>
        by_cases hstatus : out.status = 0
        · simp only [hpool, Bool.false_eq_true, hstatus, ne_eq, not_true_eq_false, if_false, Option.some.injEq] at hstep
          subst hstep
          exact .added hlive hport hpool hstatus fun hin => hfresh ⟨hstatus, hin⟩
        · simp only [hpool, Bool.false_eq_true, hstatus, ne_eq, not_false_eq_true, if_true, if_false,
            Option.some.injEq] at hstep
          subst hstep
          exact .add_failed hlive hport hpool hstatus
  | remove_from_conference status =>
    simp only [Conference.step, kind.remove_from_conference_eq] at hstep
    split at hstep
    · cases hstep
    rename_i hlive
    replace hlive := Bool.eq_false_of_not_eq_true hlive
    by_cases hstatus : s.self.conf_port ≠ none → status = 0
    · rw [Member.remove_from_conference_eq hstatus] at hstep
      cases hstep
      exact .removed hlive hstatus
    · push Not at hstatus
      obtain ⟨hsome, hstatus⟩ := hstatus
      obtain ⟨port, hport⟩ := Option.ne_none_iff_exists'.mp hsome
      simp only [Member.remove_from_conference, hport, conf_remove_port, ne_eq, hstatus, not_false_eq_true,
        if_true, Option.some.injEq] at hstep
      subst hstep
      exact .remove_failed hlive hport hstatus
  | drop status =>
    simp only [Conference.step] at hstep
    split at hstep
    · cases hstep
    · rename_i hlive
      cases hstep
      exact .dropped (Bool.eq_false_of_not_eq_true hlive)
  | op_remove_port port =>
    simp only [Conference.step] at hstep
    split at hstep
    · rename_i hqueued
      cases hstep
      exact .op_remove_port hqueued
    · cases hstep
  | frame =>
    simp only [Conference.step] at hstep
    split at hstep
    · cases hstep
    · rename_i hheld
      cases hstep
      exact .frame (not_and_or.mp hheld)

end pjsua_rust.media_port
