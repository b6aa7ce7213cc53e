import PjsuaRust.App.Transport

open ownership transition
open pjsua_rust.event (encode)

namespace pjsua_rust.pjsua_app

/-- What became of a structure made for PJSUA: a string could not be converted, PJSUA
    would read memory that is gone, or it has its copy. -/
inductive Handed (V : Type) where
  | unwound
  | faulted
  | copied (v : V)
deriving DecidableEq, Repr

def Handed.map {V W : Type} (f : V → W) : Handed V → Handed W
  | .unwound => .unwound
  | .faulted => .faulted
  | .copied v => .copied (f v)

/-- A body that fills in a structure, the call of PJSUA, which copies it, and the end
    of the function, which drops what it owns. -/
def hand_over {α V : Type} (body : Own Block α) (copy : Heap Block → α → Option V) (h : Heap Block) :
    Handed V × Heap Block :=
  match body (.enter h) with
  | .error _ t => (.unwound, t.dropped)
  | .ok a t =>
    match copy t.heap a with
    | some v => (.copied v, t.dropped)
    | none => (.faulted, t.dropped)

/-- A string that is not moved into the vector is gone when PJSUA looks for it. -/
example : (hand_over (do
    let s ← PjString.new (.next Block) ['a']
    leave
    pure s.as_pj_str) (fun h s => s.read h) .empty).1 = .faulted := by
  decide

/-- How a call ends for the application. -/
inductive CallResult where
  | Ok (id : Int)
  | Err (status : Int)
  | NotInitialized
  | unwound
  | faulted
deriving DecidableEq, Repr

/-- What there is of the DNS resolver, and what it answers. -/
inductive Resolver where
  | no_endpt
  | no_resolver
  | set_ns (status : Int)
deriving DecidableEq, Repr

/-- A call with what it hands over, and with what PJSUA answers. -/
inductive Request (A T N : Type) where
  | add_account (acc_cfg : Handed A) (status id : Int)
  | modify_account (id : Int) (acc_cfg : Handed A) (status : Int)
  | remove_account (id status : Int)
  | create_transport (tp_cfg : Handed T) (status id : Int)
  | close_transport (id status : Int)
  | no_nameservers
  | set_nameservers (pj_strs : Handed (List N)) (resolver : Resolver)

def Request.map {A T N A' T' N' : Type} (f : A → A') (g : T → T') (k : N → N') : Request A T N → Request A' T' N'
  | .add_account acc_cfg status id => .add_account (acc_cfg.map f) status id
  | .modify_account id acc_cfg status => .modify_account id (acc_cfg.map f) status
  | .remove_account id status => .remove_account id status
  | .create_transport tp_cfg status id => .create_transport (tp_cfg.map g) status id
  | .close_transport id status => .close_transport id status
  | .no_nameservers => .no_nameservers
  | .set_nameservers pj_strs resolver => .set_nameservers (pj_strs.map (List.map k)) resolver

/-- What PJSUA keeps, and how the last call ended. -/
structure Tables (A T N : Type) where
  accounts : Int → Option A
  transports : Int → Option T
  nameservers : List N
  result : CallResult

def Tables.map {A T N A' T' N' : Type} (f : A → A') (g : T → T') (k : N → N') (t : Tables A T N) : Tables A' T' N' where
  accounts id := (t.accounts id).map f
  transports id := (t.transports id).map g
  nameservers := t.nameservers.map k
  result := t.result

section Step

variable {A T N : Type}

/-- PJSUA keeps its copy under the index it answers with, which was not in use. -/
def Tables.add (table : Int → Option A) (copy : Handed A) (status id : Int) :
    Option ((Int → Option A) × CallResult) :=
  match copy with
  | .unwound => some (table, .unwound)
  | .faulted => some (table, .faulted)
  | .copied a =>
    if status ≠ 0 then some (table, .Err status)
    else if (table id).isSome then none
    else some (Function.update table id (some a), .Ok id)

/-- It replaces its copy. -/
def Tables.modify (table : Int → Option A) (id : Int) (copy : Handed A) (status : Int) :
    Option ((Int → Option A) × CallResult) :=
  match copy with
  | .unwound => some (table, .unwound)
  | .faulted => some (table, .faulted)
  | .copied a =>
    if status ≠ 0 then some (table, .Err status)
    else if (table id).isSome then some (Function.update table id (some a), .Ok id)
    else none

def Tables.close (table : Int → Option A) (id status : Int) : Option ((Int → Option A) × CallResult) :=
  if status ≠ 0 then some (table, .Err status)
  else if (table id).isSome then some (Function.update table id none, .Ok id)
  else none

/-- `remove_account` leaves an account alone that is gone already. -/
def Tables.step (t : Tables A T N) : Request A T N → Option (Tables A T N)
  | .add_account acc_cfg status id =>
    (Tables.add t.accounts acc_cfg status id).map fun r => { t with accounts := r.1, result := r.2 }
  | .modify_account id acc_cfg status =>
    (Tables.modify t.accounts id acc_cfg status).map fun r => { t with accounts := r.1, result := r.2 }
  | .remove_account id status =>
    if (t.accounts id).isNone then some { t with result := .Ok id }
    else (Tables.close t.accounts id status).map fun r => { t with accounts := r.1, result := r.2 }
  | .create_transport tp_cfg status id =>
    (Tables.add t.transports tp_cfg status id).map fun r => { t with transports := r.1, result := r.2 }
  | .close_transport id status =>
    (Tables.close t.transports id status).map fun r => { t with transports := r.1, result := r.2 }
  | .no_nameservers => some { t with result := .Ok 0 }
  | .set_nameservers pj_strs resolver =>
    match pj_strs, resolver with
    | .unwound, _ => some { t with result := .unwound }
    | _, .no_endpt => some { t with result := .NotInitialized }
    | _, .no_resolver => some { t with result := .Ok 0 }
    | .faulted, .set_ns _ => some { t with result := .faulted }
    | .copied ns, .set_ns status =>
      if status ≠ 0 then some { t with result := .Err status }
      else some { t with nameservers := ns, result := .Ok 0 }

end Step

/-- A call of the application, with what PJSUA answers. -/
inductive ConfigOp where
  | add_account (config : types.AccountSettings) (status id : Int)
  | modify_account (id : Int) (config : types.AccountSettings) (status : Int)
  | remove_account (id status : Int)
  | create_transport (args : TransportArgs) (status id : Int)
  | close_transport (id status : Int)
  | set_nameservers (servers : List (List Char)) (resolver : Resolver)

/-- The application's calls as the code makes them: each string is on the heap, and
    PJSUA follows the pointers it is given. -/
structure Copies where
  heap : Heap Block
  pjsua : Tables (pjsua_acc_config (List UInt8)) (pjsua_transport_config (List UInt8) (List UInt32)) (List UInt8)

section Calls

variable (A : Allocator Block) (dflt : AccNumbers) (tp_dflt : TransportNumbers)

def ConfigOp.call (h : Heap Block) : ConfigOp →
    Request (pjsua_acc_config (List UInt8)) (pjsua_transport_config (List UInt8) (List UInt32)) (List UInt8) × Heap Block
  | .add_account config status id =>
    let r := hand_over (populate_acc_cfg A (pjsua_acc_config_default _ dflt) config) (fun h cfg => cfg.copy h) h
    (.add_account r.1 status id, r.2)
  | .modify_account id config status =>
    let r := hand_over (populate_acc_cfg A (pjsua_acc_config_default _ dflt) config) (fun h cfg => cfg.copy h) h
    (.modify_account id r.1 status, r.2)
  | .remove_account id status => (.remove_account id status, h)
  | .create_transport args status id =>
    let r := hand_over (fill_tp_cfg A tp_dflt args) (fun h cfg => cfg.copy h) h
    (.create_transport r.1 status id, r.2)
  | .close_transport id status => (.close_transport id status, h)
  | .set_nameservers servers resolver =>
    if servers.isEmpty then (.no_nameservers, h)
    else
      let r := hand_over (fill_nameservers A servers) (fun h strs => strs.mapM fun str => str.read h) h
      (.set_nameservers r.1 resolver, r.2)

def Copies.step (s : Copies) (op : ConfigOp) : Option Copies :=
  let (request, heap) := op.call A dflt tp_dflt s.heap
  (s.pjsua.step request).map fun pjsua => { heap, pjsua }

def no_tables (A T N : Type) : Tables A T N := ⟨fun _ => none, fun _ => none, [], .Ok 0⟩

def copies (outer : Heap Block) : Machine Copies ConfigOp where
  start := ⟨outer, no_tables _ _ _⟩
  step := Copies.step A dflt tp_dflt

end Calls

/-- What the application asks for: a request is refused if one of its strings has a
    null byte, and is kept as it is otherwise. -/
def asked_for {V : Type} (texts : List (List Char)) (v : V) : Handed V :=
  if texts.all pj_string_ok then .copied v else .unwound

def ConfigOp.ask : ConfigOp → Request types.AccountSettings TransportArgs (List Char)
  | .add_account config status id => .add_account (asked_for (acc_strings config) config) status id
  | .modify_account id config status => .modify_account id (asked_for (acc_strings config) config) status
  | .remove_account id status => .remove_account id status
  | .create_transport args status id => .create_transport (asked_for (tp_strings args) args) status id
  | .close_transport id status => .close_transport id status
  | .set_nameservers servers resolver =>
    if servers.isEmpty then .no_nameservers
    else .set_nameservers (asked_for (servers.take MAX_NAMESERVERS) (servers.take MAX_NAMESERVERS)) resolver

/-- The same calls with no memory at all. -/
def asked : Machine (Tables types.AccountSettings TransportArgs (List Char)) ConfigOp where
  start := no_tables _ _ _
  step t op := t.step op.ask

/-- What was asked for can be looked at through a map before or after. -/
theorem asked_for_map {V W : Type} (f : V → W) (texts : List (List Char)) (v : V) :
    (asked_for texts v).map f = asked_for texts (f v) := by
  unfold asked_for
  split
  · rfl
  · rfl

/-- A body that shows PJSUA what its strings say hands over just that, and the memory
    is as before, also when it unwinds. -/
theorem hand_over_eq {α V : Type} {body : Own Block α} {copy : Heap Block → α → Option V} {h : Heap Block}
    {texts : List (List Char)} {v : V}
    (hends : ∀ P : Prop, (∀ text ∈ texts, pj_string_ok text = false → P) →
      Ends h P body (.enter h) fun a t => AllOk texts ∧ Owns h t ∧ copy t.heap a = some v) :
    hand_over body copy h = (asked_for texts v, h) := by
  have hbody := hends (texts.all pj_string_ok = false) fun text hmem hbad => by
    rw [List.all_eq_false]
    exact ⟨text, hmem, by simp [hbad]⟩
  rw [Ends] at hbody
  rw [hand_over, asked_for]
  cases hrun : body (.enter h) with
  | ok a t =>
    rw [hrun] at hbody
    obtain ⟨hok, hown, hcopy⟩ := hbody
    dsimp only
    rw [hcopy, hown.dropped, if_pos (List.all_eq_true.mpr hok)]
  | error e t =>
    rw [hrun] at hbody
    obtain ⟨hbad, hdropped⟩ := hbody
    dsimp only
    rw [hdropped, hbad]
    rfl

/-- Each call hands over what the application asks for, or nothing if a string has a
    null byte, and leaves the heap as it found it. The allocator and the defaults
    may be any. -/
theorem call_eq (A : Allocator Block) (dflt : AccNumbers) (tp_dflt : TransportNumbers) (h : Heap Block) (op : ConfigOp) :
    op.call A dflt tp_dflt h = (op.ask.map (acc_config_of dflt) (tp_config_of tp_dflt) encode, h) := by
  have hacc (config : types.AccountSettings) :
      hand_over (populate_acc_cfg A (pjsua_acc_config_default _ dflt) config) (fun h cfg => cfg.copy h) h =
        (asked_for (acc_strings config) (acc_config_of dflt config), h) :=
    hand_over_eq fun P hP => ends_populate (Owns.enter h) A dflt config hP
  cases op with
  | add_account config status id =>
    simp only [ConfigOp.call, hacc, ConfigOp.ask, Request.map, asked_for_map]
  | modify_account id config status =>
    simp only [ConfigOp.call, hacc, ConfigOp.ask, Request.map, asked_for_map]
  | remove_account id status => rfl
  | create_transport args status id =>
    have htp : hand_over (fill_tp_cfg A tp_dflt args) (fun h cfg => cfg.copy h) h =
        (asked_for (tp_strings args) (tp_config_of tp_dflt args), h) :=
      hand_over_eq fun P hP => ends_fill_tp_cfg (Owns.enter h) A tp_dflt args hP
    simp only [ConfigOp.call, htp, ConfigOp.ask, Request.map, asked_for_map]
  | close_transport id status => rfl
  | set_nameservers servers resolver =>
    have hns : hand_over (fill_nameservers A servers) (fun h strs => strs.mapM fun str => str.read h) h =
        (asked_for (servers.take MAX_NAMESERVERS) ((servers.take MAX_NAMESERVERS).map encode), h) := by
      refine hand_over_eq fun P hP => (ends_stored_all (Owns.enter h) A hP).mono fun strs t ht => ?_
      obtain ⟨hok, hown, -, hall⟩ := ht
      exact ⟨hok, hown, mapM_read_of_shows hall⟩
    simp only [ConfigOp.call, ConfigOp.ask]
    split
    · rfl
    · rw [hns, Request.map, asked_for_map]

section Map

variable {A T N A' T' N' : Type} (f : A → A') (g : T → T') (k : N → N')

def table_map (f : A → A') (r : (Int → Option A) × CallResult) : (Int → Option A') × CallResult :=
  (fun id => (r.1 id).map f, r.2)

theorem update_map (table : Int → Option A) (id : Int) (a : Option A) :
    Function.update (fun id => (table id).map f) id (a.map f) = fun i => (Function.update table id a i).map f :=
  (Function.comp_update (Option.map f) table id a).symm

/-- A table of what was asked for and one of what PJSUA holds change alike when an
    entry is added, -/
theorem add_map (table : Int → Option A) (copy : Handed A) (status id : Int) :
    Tables.add (fun id => (table id).map f) (copy.map f) status id =
      (Tables.add table copy status id).map (table_map f) := by
  cases copy with
  | unwound => rfl
  | faulted => rfl
  | copied a =>
    simp only [Tables.add, Handed.map, Option.isSome_map]
    split
    · rfl
    · split
      · rfl
      · have hupdate := update_map f table id (some a)
        rw [Option.map_some] at hupdate
        rw [hupdate]
        rfl

/-- modified, -/
theorem modify_map (table : Int → Option A) (id : Int) (copy : Handed A) (status : Int) :
    Tables.modify (fun id => (table id).map f) id (copy.map f) status =
      (Tables.modify table id copy status).map (table_map f) := by
  cases copy with
  | unwound => rfl
  | faulted => rfl
  | copied a =>
    simp only [Tables.modify, Handed.map, Option.isSome_map]
    split
    · rfl
    · split
      · have hupdate := update_map f table id (some a)
        rw [Option.map_some] at hupdate
        rw [hupdate]
        rfl
      · rfl

/-- or taken away. -/
theorem close_map (table : Int → Option A) (id status : Int) :
    Tables.close (fun id => (table id).map f) id status = (Tables.close table id status).map (table_map f) := by
  simp only [Tables.close, Option.isSome_map]
  split
  · rfl
  · split
    · have hupdate := update_map f table id none
      rw [Option.map_none] at hupdate
      rw [hupdate]
      rfl
    · rfl

/-- PJSUA does the same whatever it keeps of a request. So a run over what was asked
    for and one over what PJSUA holds go side by side, and neither can tell the
    other's entries. -/
theorem step_map (t : Tables A T N) (request : Request A T N) :
    (t.map f g k).step (request.map f g k) = (t.step request).map (Tables.map f g k) := by
  cases request with
  | add_account acc_cfg status id =>
    simp only [Tables.step, Request.map, Tables.map, add_map, Option.map_map]
    rfl
  | modify_account id acc_cfg status =>
    simp only [Tables.step, Request.map, Tables.map, modify_map, Option.map_map]
    rfl
  | remove_account id status =>
    simp only [Tables.step, Request.map, Tables.map, close_map, Option.isNone_map]
    split
    · rfl
    · simp only [Option.map_map]
      rfl
  | create_transport tp_cfg status id =>
    simp only [Tables.step, Request.map, Tables.map, add_map, Option.map_map]
    rfl
  | close_transport id status =>
    simp only [Tables.step, Request.map, Tables.map, close_map, Option.map_map]
    rfl
  | no_nameservers => rfl
  | set_nameservers pj_strs resolver =>
    cases pj_strs with
    | unwound => rfl
    | faulted => cases resolver <;> rfl
    | copied ns =>
      cases resolver with
      | no_endpt => rfl
      | no_resolver => rfl
      | set_ns status =>
        simp only [Tables.step, Request.map, Handed.map]
        split
        · rfl
        · rfl

end Map

/-- What the code's state is when the application has asked for `t`: PJSUA has a copy
    of everything, and the memory is what it was at the start. -/
def represent (outer : Heap Block) (dflt : AccNumbers) (tp_dflt : TransportNumbers)
    (t : Tables types.AccountSettings TransportArgs (List Char)) : Copies :=
  ⟨outer, t.map (acc_config_of dflt) (tp_config_of tp_dflt) encode⟩

/-- What is asked for never depends on memory, so it cannot fault. -/
theorem asked_for_ne_faulted {V : Type} (texts : List (List Char)) (v : V) : asked_for texts v ≠ .faulted := by
  unfold asked_for
  split
  · intro h
    cases h
  · intro h
    cases h

section Results

variable {A T N : Type} {table : Int → Option A} {r : (Int → Option A) × CallResult} {copy : Handed A}

theorem add_result (hcopy : copy ≠ .faulted) {status id : Int} (hadd : Tables.add table copy status id = some r) :
    r.2 ≠ .faulted := by
  cases copy with
  | unwound =>
    cases hadd
    intro h
    cases h
  | faulted => exact absurd rfl hcopy
  | copied a =>
    simp only [Tables.add] at hadd
    split_ifs at hadd
    all_goals
      cases hadd
      intro h
      cases h

theorem modify_result (hcopy : copy ≠ .faulted) {status id : Int}
    (hmodify : Tables.modify table id copy status = some r) : r.2 ≠ .faulted := by
  cases copy with
  | unwound =>
    cases hmodify
    intro h
    cases h
  | faulted => exact absurd rfl hcopy
  | copied a =>
    simp only [Tables.modify] at hmodify
    split_ifs at hmodify
    all_goals
      cases hmodify
      intro h
      cases h

theorem close_result {status id : Int} (hclose : Tables.close table id status = some r) : r.2 ≠ .faulted := by
  simp only [Tables.close] at hclose
  split_ifs at hclose
  all_goals
    cases hclose
    intro h
    cases h

end Results

/-- No request of the application makes PJSUA follow a pointer to nowhere. Nothing
    is assumed of the strings, of the answers, or of what PJSUA holds already. -/
theorem ask_result {t u : Tables types.AccountSettings TransportArgs (List Char)} {op : ConfigOp}
    (hstep : t.step op.ask = some u) : u.result ≠ .faulted := by
  cases op with
  | add_account config status id =>
    obtain ⟨r, hadd, rfl⟩ := Option.map_eq_some_iff.mp hstep
    exact add_result (asked_for_ne_faulted _ _) hadd
  | modify_account id config status =>
    obtain ⟨r, hmodify, rfl⟩ := Option.map_eq_some_iff.mp hstep
    exact modify_result (asked_for_ne_faulted _ _) hmodify
  | remove_account id status =>
    simp only [ConfigOp.ask, Tables.step] at hstep
    split at hstep
    · cases hstep
      intro h
      cases h
    · obtain ⟨r, hclose, rfl⟩ := Option.map_eq_some_iff.mp hstep
      exact close_result hclose
  | create_transport args status id =>
    obtain ⟨r, hadd, rfl⟩ := Option.map_eq_some_iff.mp hstep
    exact add_result (asked_for_ne_faulted _ _) hadd
  | close_transport id status =>
    obtain ⟨r, hclose, rfl⟩ := Option.map_eq_some_iff.mp hstep
    exact close_result hclose
  | set_nameservers servers resolver =>
    simp only [ConfigOp.ask, asked_for] at hstep
    split_ifs at hstep
    · cases hstep
      intro h
      cases h
    · cases resolver with
      | no_endpt =>
        cases hstep
        intro h
        cases h
      | no_resolver =>
        cases hstep
        intro h
        cases h
      | set_ns status =>
        simp only [Tables.step] at hstep
        split_ifs at hstep
        all_goals
          cases hstep
          intro h
          cases h
    · cases hstep
      intro h
      cases h

/-- Whatever accounts, transports and nameservers the application sets up, changes and
    takes away, with whatever strings, and whatever PJSUA answers: PJSUA never follows
    a pointer to a string that is gone, it holds exactly what was asked for, byte for
    byte, a call unwinds exactly if one of its strings has a null byte, and then PJSUA
    was not called, and after each call all memory the strings took is free again. -/
theorem copied_as_asked (A : Allocator Block) (dflt : AccNumbers) (tp_dflt : TransportNumbers) (outer : Heap Block)
    (ops : List ConfigOp) :
    (copies A dflt tp_dflt outer).exec (copies A dflt tp_dflt outer).start ops =
        (asked.exec asked.start ops).map (represent outer dflt tp_dflt) ∧
      ∀ t, asked.exec asked.start ops = some t → t.result ≠ .faulted := by
  constructor
  · refine Machine.exec_map (represent outer dflt tp_dflt) (fun t op => ?_) asked.start ops
    simp only [copies, Copies.step, represent, call_eq, step_map, asked, Option.map_map]
    rfl
  · intro t ht
    have hreach := Machine.Reach.exec .start (Machine.admits_of_forall (fun _ _ => trivial) asked.start ops) ht
    refine hreach.invariant (P := fun t => t.result ≠ .faulted) ?_ ?_
    · intro h
      cases h
    · intro s op u _ _ hstep _
      exact ask_result hstep

end pjsua_rust.pjsua_app
