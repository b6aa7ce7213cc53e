import PjsuaRust.Media.Conference

open transition

namespace pjsua_rust.media_port

/-- Every call into PJSUA that the operation makes succeeds. -/
def ConfOp.Succeeds : ConfOp → Prop
  | .add_to_conference out => out.pool_null = false ∧ out.status = 0
  | .remove_from_conference status | .drop status => status = 0
  | .op_remove_port _ | .frame => True

/-- Who may still touch the port: its owner until the drop, and the bridge once
    for each time it was added, until that removal is carried out. -/
def Conference.references (s : Conference) : Nat :=
  (if s.dropped then 0 else 1) + s.pj.slots.length + s.pj.removing.length

/-- The port and its context are as they were made; they were only used. -/
structure Held (pj : Pjmedia) : Prop where
  used : ∀ e ∈ pj.log, e = .used_port ∨ e = .used_context
  pdata : pj.pdata = true

/-- What `trampoline_on_destroy` does with them comes last, newest first. -/
def last_events : List PortEvent :=
  [.freed_port, .freed_context, .used_port, .on_destroy, .used_context, .used_port, .trampoline_on_destroy]

/-- The port is destroyed, and nothing has happened since. -/
def Destroyed (pj : Pjmedia) : Prop :=
  ∃ past, pj.log = last_events ++ past ∧ ∀ e ∈ past, e = .used_port ∨ e = .used_context

/-- A port that is used is not destroyed. -/
theorem Held.use {pj pj' : Pjmedia} (hheld : Held pj) {e : PortEvent} (he : e = .used_port ∨ e = .used_context)
    (hlog : pj'.log = e :: pj.log) (hpdata : pj'.pdata = pj.pdata) : Held pj' := by
  refine ⟨fun e' he' => ?_, hpdata.trans hheld.pdata⟩
  rw [hlog] at he'
  rcases List.mem_cons.mp he' with rfl | he'
  · exact he
  · exact hheld.used e' he'

/-- The destroy callback frees the context and the port, in this order and each
    once. -/
theorem Held.on_destroy {pj : Pjmedia} (hheld : Held pj) : Destroyed (trampoline_on_destroy pj) := by
  refine ⟨pj.log, ?_, hheld.used⟩
  rw [trampoline_on_destroy, if_pos hheld.pdata]
  rfl

/-- A reference is given up: the count goes down, and the port with the last. With
    one left the port and its context are as they were. -/
theorem Held.dec_ref {pj : Pjmedia} (hheld : Held pj) (count : Nat) :
    (pj_grp_lock_dec_ref .CustomPort pj count).grp_lock = some (count - 1) ∧
      (pj_grp_lock_dec_ref .CustomPort pj count).slots = pj.slots ∧
      (pj_grp_lock_dec_ref .CustomPort pj count).removing = pj.removing ∧
      (count ≠ 1 → Held (pj_grp_lock_dec_ref .CustomPort pj count)) ∧
      (count = 1 → Destroyed (pj_grp_lock_dec_ref .CustomPort pj count)) := by
  have hfewer : Held { pj with grp_lock := some (count - 1) } := ⟨hheld.used, hheld.pdata⟩
  unfold pj_grp_lock_dec_ref
  dsimp only
  by_cases hlast : count = 1
  · rw [if_pos hlast]
    have hdestroyed := hfewer.on_destroy
    refine ⟨?_, ?_, ?_, fun h => absurd hlast h, fun _ => hdestroyed⟩
    all_goals rw [Kind.on_destroy, trampoline_on_destroy, if_pos hfewer.pdata]
  · rw [if_neg hlast]
    exact ⟨rfl, rfl, rfl, fun _ => hfewer, fun h => absurd h hlast⟩

/-- The count is that of the references, and the port is there as long as it has
    one. -/
structure Conference.Counted (s : Conference) : Prop where
  count : ∀ n, s.pj.grp_lock = some n → n = s.references
  unadded : s.pj.grp_lock = none → s.pj.slots = [] ∧ s.pj.removing = []
  held : s.references ≠ 0 → Held s.pj
  destroyed : s.references = 0 → Destroyed s.pj

theorem Conference.references_live {s : Conference} (hlive : s.dropped = false) :
    s.references = 1 + s.pj.slots.length + s.pj.removing.length := by
  simp [Conference.references, hlive]

theorem Conference.references_dropped {s : Conference} (hdropped : s.dropped = true) :
    s.references = s.pj.slots.length + s.pj.removing.length := by
  simp [Conference.references, hdropped]

/-- The owner has the only reference at first. -/
theorem Conference.counted_start : (conference .CustomPort).start.Counted where
  count _ hcount := nomatch hcount
  unadded _ := ⟨rfl, rfl⟩
  held _ := ⟨fun _ he => absurd he List.not_mem_nil, rfl⟩
  destroyed hzero := nomatch hzero

/-- Where the owner is live the port is held. -/
theorem Conference.Counted.held_live {s : Conference} (hcounted : s.Counted) (hlive : s.dropped = false) :
    Held s.pj := by
  apply hcounted.held
  rw [Conference.references_live hlive]
  omega

/-- Leaving hands the bridge's reference over to the queue: the slot is free at
    once, and the port is removed later. What the port was used for does not change. -/
theorem Member.leave_conference_counts {self : Member} {pj : Pjmedia} (hslots : pj.slots = self.conf_port.toList) :
    (self.leave_conference pj 0).2.slots = [] ∧
      (self.leave_conference pj 0).2.removing.length = pj.slots.length + pj.removing.length ∧
      (self.leave_conference pj 0).2.grp_lock = pj.grp_lock ∧
      (self.leave_conference pj 0).2.log = pj.log ∧
      (self.leave_conference pj 0).2.pdata = pj.pdata := by
  refine ⟨Member.leave_conference_slots hslots fun _ => rfl, ?_⟩
  unfold Member.leave_conference
  cases hport : self.conf_port with
  | none =>
    rw [hport] at hslots
    simp only [Member.release_conf_pool, pj_pool_release]
    cases self.conf_pool <;> simp [hslots]
  | some port =>
    rw [hport] at hslots
    simp only [Member.release_conf_pool, pj_pool_release, conf_remove_port]
    cases self.conf_pool <;> simp [hslots, Nat.add_comm]

/-- Whoever gives up a reference, the count says who is left. If nobody is, the port
    is destroyed then and there. -/
theorem counted_of_dec_ref {t : Conference} {pj : Pjmedia} {count : Nat} (hheld : Held pj)
    (hpj : t.pj = pj_grp_lock_dec_ref .CustomPort pj count) (hcount : count = t.references + 1) : t.Counted := by
  obtain ⟨hgrp_lock, -, -, hothers, hlast⟩ := hheld.dec_ref count
  rw [← hpj] at hgrp_lock hothers hlast
  refine ⟨fun n hn => ?_, fun hnone => ?_, fun hrefs => ?_, fun hrefs => ?_⟩
  · rw [hgrp_lock] at hn
    cases hn
    omega
  · rw [hgrp_lock] at hnone
    cases hnone
  · exact hothers (by omega)
  · exact hlast (by omega)

/-- A drop gives the owner's reference back, and queues the removal of the port if
    it is registered. -/
theorem Conference.Counted.drop {s : Conference} (hcounted : s.Counted) (hlive : s.dropped = false)
    (hslots : s.pj.slots = s.self.conf_port.toList) :
    Conference.Counted
      { self := (Kind.CustomPort.drop s.self s.pj 0).1
        pj := (Kind.CustomPort.drop s.self s.pj 0).2
        dropped := true } := by
  obtain ⟨hgone, hqueue, hgrp_lock, hlog, hpdata⟩ := Member.leave_conference_counts hslots
  have hheld : Held { (s.self.leave_conference s.pj 0).2 with
      log := .used_port :: (s.self.leave_conference s.pj 0).2.log } :=
    (hcounted.held_live hlive).use (.inl rfl) (by rw [← hlog]) hpdata
  have hrefs := Conference.references_live hlive
  cases hcount : s.pj.grp_lock with
  | some count =>
    have hpj : (Kind.CustomPort.drop s.self s.pj 0).2 = pj_grp_lock_dec_ref .CustomPort
        { (s.self.leave_conference s.pj 0).2 with
          log := .used_port :: (s.self.leave_conference s.pj 0).2.log } count := by
      rw [hcount] at hgrp_lock
      simp only [Kind.drop, CustomPort.drop, pjmedia_port_destroy, hgrp_lock]
    refine counted_of_dec_ref hheld hpj ?_
    have hn := hcounted.count count hcount
    obtain ⟨-, hslots', hremoving', -, -⟩ := hheld.dec_ref count
    rw [Conference.references_dropped rfl]
    dsimp only
    rw [hpj, hslots', hremoving']
    dsimp only
    rw [hgone, hqueue, List.length_nil]
    omega
  | none =>
    have hpj : (Kind.CustomPort.drop s.self s.pj 0).2 = trampoline_on_destroy
        { (s.self.leave_conference s.pj 0).2 with
          log := .used_port :: (s.self.leave_conference s.pj 0).2.log } := by
      rw [hcount] at hgrp_lock
      simp only [Kind.drop, CustomPort.drop, pjmedia_port_destroy, hgrp_lock]
      rfl
    obtain ⟨hempty, hnothing⟩ := hcounted.unadded hcount
    rw [hempty, hnothing] at hqueue
    have hremoving := List.length_eq_zero_iff.mp hqueue
    have hdestroyed := hheld.on_destroy
    rw [← hpj] at hdestroyed
    have hbooks : (Kind.CustomPort.drop s.self s.pj 0).2.slots = [] ∧
        (Kind.CustomPort.drop s.self s.pj 0).2.removing = [] ∧
        (Kind.CustomPort.drop s.self s.pj 0).2.grp_lock = none := by
      rw [hpj, trampoline_on_destroy, if_pos hheld.pdata]
      exact ⟨hgone, hremoving, hgrp_lock.trans hcount⟩
    obtain ⟨hslots', hremoving', hgrp_lock'⟩ := hbooks
    refine ⟨fun n hn => ?_, fun _ => ⟨hslots', hremoving'⟩, fun hsome => ?_, fun _ => hdestroyed⟩
    · rw [hgrp_lock'] at hn
      cases hn
    · rw [Conference.references_dropped rfl] at hsome
      dsimp only at hsome
      rw [hslots', hremoving'] at hsome
      exact absurd rfl hsome

/-- A removal gives its reference back, and destroys the port if that was the last.
    It is carried out later than it was asked for, when the port may be dropped
    already. -/
theorem Conference.Counted.op_remove_port {s : Conference} (hcounted : s.Counted) {port : Int}
    (hqueued : port ∈ s.pj.removing) :
    Conference.Counted { s with pj := media_port.op_remove_port .CustomPort s.pj port } := by
  have hpositive := List.length_pos_of_mem hqueued
  have herase := List.length_erase_of_mem hqueued
  have hheld : Held { s.pj with removing := s.pj.removing.erase port, log := .used_port :: s.pj.log } := by
    refine (hcounted.held ?_).use (.inl rfl) rfl rfl
    unfold Conference.references
    omega
  cases hcount : s.pj.grp_lock with
  | none =>
    rw [(hcounted.unadded hcount).2] at hqueued
    exact absurd hqueued List.not_mem_nil
  | some count =>
    have hpj : media_port.op_remove_port .CustomPort s.pj port = pj_grp_lock_dec_ref .CustomPort
        { s.pj with removing := s.pj.removing.erase port, log := .used_port :: s.pj.log } count := by
      simp only [media_port.op_remove_port, hcount]
    refine counted_of_dec_ref hheld hpj ?_
    have hn := hcounted.count count hcount
    obtain ⟨-, hslots', hremoving', -, -⟩ := hheld.dec_ref count
    unfold Conference.references at hn ⊢
    dsimp only at hn ⊢
    rw [hpj, hslots', hremoving']
    dsimp only
    omega

/-- One case for each operation, all of them succeeding. Each reference of the count
    is one that the port itself, a slot of the bridge or a queued removal holds. -/
theorem Conference.Counted.step {s t : Conference} {op : ConfOp} (hcounted : s.Counted)
    (hinv : s.Inv .CustomPort) (hok : op.Succeeds) (hstep : s.step .CustomPort op = some t) : t.Counted := by
  cases Conference.step_inv hstep with
  | not_added hlive hrefused => exact hcounted
  | add_failed hlive hnone hpool hstatus => exact absurd hok.2 hstatus
  | remove_failed hlive hport hstatus => exact absurd hok hstatus
  | @added out hlive hnone hpool hstatus hfresh =>
    have hheld := hcounted.held_live hlive
    have hrefs := Conference.references_live hlive
    refine ⟨fun n hn => ?_, fun hnone' => (nomatch hnone'), fun _ => ⟨hheld.used, hheld.pdata⟩, fun hzero => ?_⟩
    · cases hn
      rw [Conference.references_live (by exact hlive)]
      dsimp only
      rw [List.length_cons]
      cases hcount : s.pj.grp_lock with
      | none =>
        obtain ⟨hslots, hremoving⟩ := hcounted.unadded hcount
        rw [hslots, hremoving]
        rfl
      | some count =>
        have := hcounted.count count hcount
        rw [Option.getD_some]
        omega
    · rw [Conference.references_live (by exact hlive)] at hzero
      omega
  | @removed status hlive hstatus =>
    obtain rfl : status = 0 := hok
    obtain ⟨hgone, hqueue, hgrp_lock, hlog, hpdata⟩ := Member.leave_conference_counts (hinv.registered hlive)
    have hheld := hcounted.held_live hlive
    have hrefs := Conference.references_live hlive
    have hrefs' : Conference.references { s with
        self := (s.self.leave_conference s.pj 0).1, pj := (s.self.leave_conference s.pj 0).2 } = s.references := by
      rw [Conference.references_live (by exact hlive), hrefs]
      dsimp only
      rw [hgone, hqueue, List.length_nil]
      omega
    refine ⟨fun n hn => ?_, fun hnone => ?_, fun _ => ⟨?_, hpdata.trans hheld.pdata⟩, fun hzero => ?_⟩
    · rw [hrefs']
      exact hcounted.count n (hgrp_lock.symm.trans hn)
    · obtain ⟨hslots, hremoving⟩ := hcounted.unadded (hgrp_lock.symm.trans hnone)
      refine ⟨hgone, List.length_eq_zero_iff.mp ?_⟩
      rw [hqueue, hslots, hremoving]
      rfl
    · dsimp only
      rw [hlog]
      exact hheld.used
    · omega
  | @dropped status hlive =>
    obtain rfl : status = 0 := hok
    exact hcounted.drop hlive (hinv.registered hlive)
  | op_remove_port hqueued => exact hcounted.op_remove_port hqueued
  | frame hheld =>
    have hrefs : s.references ≠ 0 := by
      unfold Conference.references
      rcases hheld with hslots | hremoving
      · have := List.length_pos_iff.mpr hslots
        omega
      · have := List.length_pos_iff.mpr hremoving
        omega
    have hport : Held { s.pj with log := .used_port :: s.pj.log } := (hcounted.held hrefs).use (.inl rfl) rfl rfl
    refine ⟨hcounted.count, hcounted.unadded, fun _ => hport.use (.inr rfl) rfl rfl, fun hzero => absurd hzero hrefs⟩

/-- The port is destroyed at most once, and touched only before that; it is
    destroyed when the owner has dropped it and no removal is left. -/
structure DestroyedOnce (s : Conference) : Prop where
  port_untouched : Logged (fun e past => e = .used_port ∨ e = .freed_port → PortEvent.freed_port ∉ past) s.pj.log
  context_untouched :
    Logged (fun e past => e = .used_context ∨ e = .freed_context → PortEvent.freed_context ∉ past) s.pj.log
  at_most_once : ∀ e, e ≠ .used_port → e ≠ .used_context → s.pj.log.count e ≤ 1
  once : s.dropped = true → s.pj.removing = [] →
    ∀ e, e ≠ .used_port → e ≠ .used_context → s.pj.log.count e = 1

theorem not_mem_of_used {past : List PortEvent} (hused : ∀ e ∈ past, e = .used_port ∨ e = .used_context)
    {e : PortEvent} (hport : e ≠ .used_port) (hcontext : e ≠ .used_context) : e ∉ past :=
  fun hin => (hused e hin).elim hport hcontext

/-- A log without `freed` meets no use after it. -/
theorem logged_of_not_mem {used freed : PortEvent} {log : List PortEvent} (hnone : freed ∉ log) :
    Logged (fun e past => e = used ∨ e = freed → freed ∉ past) log := by
  intro e past hsuffix _ hin
  exact hnone (hsuffix.subset (List.mem_cons_of_mem e hin))

/-- In the log of a port that was destroyed, nothing is used or freed once it was
    freed. -/
theorem Destroyed.logs {pj : Pjmedia} (hdestroyed : Destroyed pj) :
    Logged (fun e past => e = .used_port ∨ e = .freed_port → PortEvent.freed_port ∉ past) pj.log ∧
      Logged (fun e past => e = .used_context ∨ e = .freed_context → PortEvent.freed_context ∉ past) pj.log ∧
      ∀ e, e ≠ .used_port → e ≠ .used_context → pj.log.count e = 1 := by
  obtain ⟨past, hlog, hused⟩ := hdestroyed
  have hport : PortEvent.freed_port ∉ past := not_mem_of_used hused nofun nofun
  have hcontext : PortEvent.freed_context ∉ past := not_mem_of_used hused nofun nofun
  rw [hlog]
  refine ⟨?_, ?_, ?_⟩
  · simp only [last_events, List.cons_append, List.nil_append]
    exact logged_cons.mpr ⟨fun _ => by simpa using hport, logged_of_not_mem (by simpa using hport)⟩
  · simp only [last_events, List.cons_append, List.nil_append]
    refine logged_cons.mpr ⟨by simp, logged_cons.mpr ⟨fun _ => by simpa using hcontext, ?_⟩⟩
    exact logged_of_not_mem (by simpa using hcontext)
  · intro e he he'
    rw [List.count_append, List.count_eq_zero.mpr (not_mem_of_used hused he he')]
    cases e <;> first | rfl | contradiction

/-- The count of references decides: with none left the port was destroyed once,
    with one left it was not destroyed. -/
theorem Conference.Counted.destroyed_once {s : Conference} (hcounted : s.Counted)
    (hgone : s.dropped = true → s.pj.slots = []) : DestroyedOnce s := by
  by_cases hrefs : s.references = 0
  · obtain ⟨hport, hcontext, hcount⟩ := (hcounted.destroyed hrefs).logs
    exact ⟨hport, hcontext, fun e he he' => (hcount e he he').le, fun _ _ => hcount⟩
  · have hused := (hcounted.held hrefs).used
    refine ⟨logged_of_not_mem (not_mem_of_used hused nofun nofun),
      logged_of_not_mem (not_mem_of_used hused nofun nofun), fun e he he' => ?_, fun hdropped hnone => ?_⟩
    · rw [List.count_eq_zero.mpr (not_mem_of_used hused he he')]
      exact Nat.zero_le 1
    · rw [Conference.references_dropped hdropped, hgone hdropped, hnone] at hrefs
      exact absurd rfl hrefs

theorem ConfOp.Succeeds.whole {s : Conference} {op : ConfOp} (hok : op.Succeeds) :
    RemovesWhole s op ∧ DropsWhole s op := by
  cases op with
  | remove_from_conference status => exact ⟨fun _ => hok, trivial⟩
  | drop status => exact ⟨trivial, fun _ => hok⟩
  | _ => exact ⟨trivial, trivial⟩

theorem op_remove_port_removing (pj : Pjmedia) (port : Int) :
    (op_remove_port .CustomPort pj port).removing = pj.removing.erase port := by
  simp only [op_remove_port, pj_grp_lock_dec_ref, Kind.on_destroy, trampoline_on_destroy]
  split
  · split
    · split <;> rfl
    · rfl
  · rfl

/-- The removals that are queued can all be carried out, from any state, so that
    every run can go on to one in which none is left. -/
theorem queue_drains (s : Conference) :
    ∃ t, (conference .CustomPort).exec s (s.pj.removing.map .op_remove_port) = some t ∧
      t.dropped = s.dropped ∧ t.pj.removing = [] := by
  induction hqueue : s.pj.removing generalizing s with
  | nil => exact ⟨s, rfl, rfl, hqueue⟩
  | cons port rest ih =>
    have hrest : (op_remove_port .CustomPort s.pj port).removing = rest := by
      rw [op_remove_port_removing, hqueue, List.erase_cons_head]
    obtain ⟨t, hexec, hdropped, hempty⟩ := ih { s with pj := op_remove_port .CustomPort s.pj port } hrest
    refine ⟨t, ?_, hdropped, hempty⟩
    have hqueued : port ∈ s.pj.removing := by
      rw [hqueue]
      exact List.mem_cons_self
    rw [List.map_cons, Machine.exec_cons]
    simp only [conference, Conference.step, if_pos hqueued, Option.bind_some]
    exact hexec

/-- A `CustomPort` is destroyed once and last: whatever the owner does before its
    drop, and whenever the bridge carries out its removals. The calls into PJSUA
    succeed; that the removals are carried out at all is not assumed, and until then
    the port and its context are alive. -/
theorem custom_port_destroyed_once {s : Conference}
    (hreach : (conference .CustomPort).Reach (fun _ op => op.Succeeds) s) : DestroyedOnce s := by
  have hwhole : (conference .CustomPort).Reach (fun s op => RemovesWhole s op ∧ DropsWhole s op) s :=
    hreach.mono fun _ _ hok => hok.whole
  have hcounted : s.Counted := by
    refine hreach.invariant Conference.counted_start ?_
    intro s op t hprev hok hstep hcounted
    have hinv := Conference.inv_of_reach (hprev.mono fun _ _ hok => hok.whole.1)
    exact hcounted.step hinv hok hstep
  exact hcounted.destroyed_once (Conference.gone_of_reach hwhole)

def two_rounds : List ConfOp :=
  [.add_to_conference { port_id := 3 }, .frame, .remove_from_conference 0, .add_to_conference { port_id := 4 },
    .drop 0, .op_remove_port 4, .frame, .op_remove_port 3]

/-- A port that is added twice and dropped, with both removals carried out after
    the drop. -/
theorem custom_port_destroyed_once_two_rounds :
    ∃ t, (conference .CustomPort).exec (conference .CustomPort).start two_rounds = some t ∧ t.dropped = true ∧
      t.pj.removing = [] ∧ DestroyedOnce t := by
  have hadmits : (conference .CustomPort).Admits (fun _ op => op.Succeeds) (conference .CustomPort).start
      two_rounds := by
    simp [two_rounds, Machine.Admits, ConfOp.Succeeds]
  have hexec : ∃ t, (conference .CustomPort).exec (conference .CustomPort).start two_rounds = some t ∧
      t.dropped = true ∧ t.pj.removing = [] := ⟨_, rfl, rfl, rfl⟩
  obtain ⟨t, hexec, hdropped, hempty⟩ := hexec
  exact ⟨t, hexec, hdropped, hempty, custom_port_destroyed_once (Machine.Reach.start.exec hadmits hexec)⟩

end pjsua_rust.media_port
