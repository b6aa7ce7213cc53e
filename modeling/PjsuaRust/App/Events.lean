import PjsuaRust.App.Singleton
import PjsuaRust.Transition.Log

open transition pjsua_rust.pjsua_app

namespace pjsua_rust.event

/-- The receiver of an unbounded channel, tokio's, as its documentation has it: what
    is sent is queued in the order it was sent in, `send` does not wait, and fails
    once the receiver was dropped. Senders, tasks and wakers are not modelled. -/
structure Receiver (E : Type) where
  queued : List E := []
  received : List E := []
  dropped : Bool := false
deriving DecidableEq, Repr

/-- `tx.send`: an event for a receiver that is gone is dropped. -/
def Receiver.send {E : Type} (rx : Receiver E) (event : E) : Receiver E :=
  if rx.dropped then rx else { rx with queued := rx.queued ++ [event] }

/-- A receiver has had the events in order, and has the rest while it is there. -/
structure Receiver.Holds {E : Type} (rx : Receiver E) (events : List E) : Prop where
  kept : rx.dropped = false → rx.received ++ rx.queued = events
  received : rx.received <+: events

/-- An event that is sent is queued behind the others, or lost with its receiver. In
    both cases what was received is a beginning of what was sent. -/
theorem Receiver.Holds.send {E : Type} {rx : Receiver E} {events : List E} (h : rx.Holds events) (event : E) :
    (rx.send event).Holds (events ++ [event]) := by
  unfold Receiver.send
  by_cases hdropped : rx.dropped = true
  · rw [if_pos hdropped]
    exact ⟨fun hopen => absurd hdropped (Bool.not_eq_true _ ▸ hopen), h.received.trans (List.prefix_append _ _)⟩
  · rw [if_neg hdropped]
    refine ⟨fun hopen => ?_, h.received.trans (List.prefix_append _ _)⟩
    rw [← h.kept hopen, List.append_assoc]

/-- The event that is received is the oldest one. -/
theorem Receiver.Holds.recv {E : Type} {rx : Receiver E} {events : List E} {event : E} {queued : List E}
    (h : rx.Holds events) (hopen : rx.dropped = false) (hqueued : rx.queued = event :: queued) :
    { rx with queued, received := rx.received ++ [event] : Receiver E }.Holds events := by
  have hkept : rx.received ++ [event] ++ queued = events := by
    rw [← h.kept hopen, hqueued, List.append_assoc, List.singleton_append]
  exact ⟨fun _ => hkept, ⟨queued, hkept⟩⟩

/-- Once the receiver is dropped, what it has received is a prefix of what was sent. -/
theorem Receiver.Holds.drop {E : Type} {rx : Receiver E} {events : List E} (h : rx.Holds events) :
    { rx with queued := [], dropped := true : Receiver E }.Holds events where
  kept hopen := by cases hopen
  received := h.received

/-- The process with the channels of its apps. `rx i` is the receiver that the call
    `i` of `new` makes, and `log` every event there was, newest first, each with
    the sender that was installed. -/
structure Bus (E : Type) where
  process : Process
  rx : Nat → Receiver E
  log : List (Option Nat × E)

inductive BusOp (E : Type) where
  | process (op : ProcessOp)
  | send_event (event : E)
  | recv (i : Nat)
  | drop_rx (i : Nat)

section Bus

variable {E : Type}

/-- `send_event`: one section under the lock of `EVENT_TX`. -/
def Bus.send_event (s : Bus E) (event : E) : Bus E where
  process := s.process
  rx :=
    match s.process.event_tx with
    | none => s.rx
    | some i => Function.update s.rx i ((s.rx i).send event)
  log := (s.process.event_tx, event) :: s.log

def Bus.step (s : Bus E) : BusOp E → Option (Bus E)
  | .process op => (s.process.step op).map fun process => { s with process }
  | .send_event event => some (s.send_event event)
  | .recv i =>
    match (s.rx i).dropped, (s.rx i).queued with
    | false, event :: queued =>
      let rx := { s.rx i with queued, received := (s.rx i).received ++ [event] }
      some { s with rx := Function.update s.rx i rx }
    | _, _ => none
  | .drop_rx i => some { s with rx := Function.update s.rx i { s.rx i with queued := [], dropped := true } }

def bus (E : Type) : Machine (Bus E) (BusOp E) where
  start := { process := pjsua_app.process.start, rx := fun _ => {}, log := [] }
  step := Bus.step

/-- The events sent while the sender of `i` was installed, oldest first. -/
def events_of (i : Nat) (log : List (Option Nat × E)) : List E :=
  ((log.filter (·.1 = some i)).map Prod.snd).reverse

theorem events_of_cons (i : Nat) (entry : Option Nat × E) (log : List (Option Nat × E)) :
    events_of i (entry :: log) = events_of i log ++ if entry.1 = some i then [entry.2] else [] := by
  unfold events_of
  by_cases hi : entry.1 = some i
  · rw [List.filter_cons_of_pos (by simpa using hi), List.map_cons, List.reverse_cons, if_pos hi]
  · rw [List.filter_cons_of_neg (by simpa using hi), if_neg hi, List.append_nil]

/-- A call of `new` that has not installed its sender and still may. -/
def uninstalled : Phase → Bool
  | .absent | .starting _ .set_event_sender => true
  | _ => false

/-- A call installs its sender in one step, and never once it was taken out. Of the
    statuses nothing is assumed. -/
theorem advance_uninstalled {p q : Phase} {status : Int} {effect : Effect}
    (hadvance : p.advance status = some (q, effect)) :
    uninstalled q = false ∧ (effect = .set_event_sender → uninstalled p = true) := by
  unfold Phase.advance at hadvance
  split at hadvance
  all_goals try split at hadvance
  all_goals try split at hadvance
  all_goals cases hadvance
  all_goals exact ⟨rfl, by simp [uninstalled]⟩

/-- A receiver holds what was sent to it, the events of one sender are in one
    piece, and a sender that may still be installed was never there before. -/
structure Bus.Inv (s : Bus E) : Prop where
  holds : ∀ i, (s.rx i).Holds (events_of i s.log)
  unsent : ∀ i, uninstalled (s.process.inst i) = true → s.process.event_tx ≠ some i ∧ ∀ x ∈ s.log, x.1 ≠ some i
  latest : ∀ i, s.process.event_tx = some i → Latest (·.1 = some i) s.log
  together : ∀ i, Together (·.1 = some i) s.log

/-- A step of the process installs a sender for the first time, or none. A sender
    that was taken out is not installed again, so an app's events come in one piece. -/
theorem process_step_sender {s t : Process} {op : ProcessOp} (hstep : s.step op = some t) (i : Nat) :
    (uninstalled (t.inst i) = true → uninstalled (s.inst i) = true ∧ (t.event_tx = some i → s.event_tx = some i)) ∧
      (t.event_tx = some i → s.event_tx = some i ∨ uninstalled (s.inst i) = true) := by
  cases Process.step_inv hstep with
  | @refused j config habsent =>
    refine ⟨fun hun => ?_, .inl⟩
    by_cases hij : i = j
    · subst hij
      rw [Process.set_inst_self] at hun
      cases hun
    · rw [Process.set_inst_of_ne _ hij] at hun
      exact ⟨hun, id⟩
  | @started j config habsent =>
    refine ⟨fun hun => ?_, .inl⟩
    by_cases hij : i = j
    · subst hij
      exact ⟨by rw [habsent]; rfl, id⟩
    · exact ⟨by rwa [← Process.set_inst_of_ne s hij], id⟩
  | @drop j hlive =>
    refine ⟨fun hun => ?_, .inl⟩
    by_cases hij : i = j
    · subst hij
      rw [Process.set_inst_self] at hun
      cases hun
    · rw [Process.set_inst_of_ne _ hij] at hun
      exact ⟨hun, id⟩
  | @advance j status p effect hadvance =>
    obtain ⟨hq, hset⟩ := advance_uninstalled hadvance
    have htx : ((s.apply j effect).set j p).event_tx = some i →
        s.event_tx = some i ∨ i = j ∧ uninstalled (s.inst i) = true := by
      intro htx
      cases effect with
      | set_event_sender =>
        cases htx
        exact .inr ⟨rfl, hset rfl⟩
      | clear_event_sender => cases htx
      | none | created | destroyed | reset => exact .inl htx
    refine ⟨fun hun => ?_, fun h => (htx h).imp_right And.right⟩
    by_cases hij : i = j
    · subst hij
      rw [Process.set_inst_self, hq] at hun
      cases hun
    · rw [Process.set_inst_of_ne _ hij, Process.apply_inst] at hun
      exact ⟨hun, fun h => (htx h).resolve_right fun hj => hij hj.1⟩

/-- A step of `new` or of a drop sends nothing, and changes what the channels hold
    in no other way either. -/
theorem Bus.Inv.process {s : Bus E} (hinv : s.Inv) {op : ProcessOp} {p : Process}
    (hstep : s.process.step op = some p) : ({ s with process := p } : Bus E).Inv where
  holds := hinv.holds
  unsent i hun := by
    obtain ⟨hbefore, htx⟩ := (process_step_sender hstep i).1 hun
    obtain ⟨hnot, hlog⟩ := hinv.unsent i hbefore
    exact ⟨fun h => hnot (htx h), hlog⟩
  latest i htx := by
    rcases (process_step_sender hstep i).2 htx with hsame | hun
    · exact hinv.latest i hsame
    · exact latest_of_none (hinv.unsent i hun).2
  together := hinv.together

/-- An event goes to the receiver whose sender is installed, and to no other. -/
theorem Bus.rx_send_event (s : Bus E) (event : E) (i : Nat) :
    (s.send_event event).rx i = if s.process.event_tx = some i then (s.rx i).send event else s.rx i := by
  cases htx : s.process.event_tx with
  | none => simp only [Bus.send_event, htx, reduceCtorEq, if_false]
  | some j =>
    simp only [Bus.send_event, htx, Option.some.injEq]
    by_cases hji : j = i
    · subst hji
      rw [if_pos rfl, Function.update_self]
    · rw [if_neg hji, Function.update_of_ne (Ne.symm hji)]

/-- An event goes to the app whose sender is installed, if there is one, and to no
    other. -/
theorem Bus.Inv.send_event {s : Bus E} (hinv : s.Inv) (event : E) : (s.send_event event).Inv := by
  have hlatest : ∀ i, s.process.event_tx = some i → Latest (·.1 = some i) (s.send_event event).log :=
    fun i htx => (hinv.latest i htx).cons htx
  refine ⟨fun i => ?_, fun i hun => ?_, hlatest, fun i => ?_⟩
  · rw [s.rx_send_event, show (s.send_event event).log = (s.process.event_tx, event) :: s.log from rfl, events_of_cons]
    by_cases htx : s.process.event_tx = some i
    · rw [if_pos htx, if_pos htx]
      exact (hinv.holds i).send event
    · rw [if_neg htx, if_neg htx, List.append_nil]
      exact hinv.holds i
  · obtain ⟨hnot, hlog⟩ := hinv.unsent i hun
    exact ⟨hnot, List.forall_mem_cons.mpr ⟨hnot, hlog⟩⟩
  · by_cases htx : s.process.event_tx = some i
    · exact (hlatest i htx).together
    · exact (hinv.together i).cons htx

/-- A change to one receiver that leaves it with the same events, whether they are
    still queued or were received. -/
theorem Bus.Inv.update {s : Bus E} (hinv : s.Inv) {i : Nat} {rx : Receiver E} (hrx : rx.Holds (events_of i s.log)) :
    ({ s with rx := Function.update s.rx i rx } : Bus E).Inv where
  holds j := by
    dsimp only
    by_cases hji : j = i
    · subst hji
      rw [Function.update_self]
      exact hrx
    · rw [Function.update_of_ne hji]
      exact hinv.holds j
  unsent := hinv.unsent
  latest := hinv.latest
  together := hinv.together

/-- One case for each operation. Only an event that is sent adds to what a receiver
    holds; the steps of the process decide whose receiver it is. -/
theorem Bus.Inv.step {s t : Bus E} {op : BusOp E} (hinv : s.Inv) (hstep : s.step op = some t) : t.Inv := by
  cases op with
  | process op =>
    obtain ⟨p, hp, rfl⟩ := Option.map_eq_some_iff.mp hstep
    exact hinv.process hp
  | send_event event =>
    cases hstep
    exact hinv.send_event event
  | recv i =>
    simp only [Bus.step] at hstep
    split at hstep
    · rename_i event queued hopen hqueued
      cases hstep
      exact hinv.update ((hinv.holds i).recv hopen hqueued)
    · cases hstep
  | drop_rx i =>
    cases hstep
    exact hinv.update (hinv.holds i).drop

/-- The invariant holds in every reachable state: nothing is assumed of the order of
    the steps. -/
theorem bus_inv {s : Bus E} (hreach : (bus E).Reach (fun _ _ => True) s) : s.Inv := by
  refine hreach.invariant (P := Bus.Inv) ?_ fun _ _ _ _ _ hstep hinv => hinv.step hstep
  have hnone : ∀ i, ∀ x ∈ (bus E).start.log, x.1 ≠ some i := by simp [bus]
  refine ⟨fun i => ⟨fun _ => rfl, List.prefix_refl _⟩, fun i _ => ⟨?_, hnone i⟩, fun i _ => latest_of_none (hnone i),
    fun i => (latest_of_none (hnone i)).together⟩
  intro htx
  cases htx

/-- The statics go through a run of their own, as if no events were sent. What is
    known of every run of the process is therefore known here as well. -/
theorem bus_process {s : Bus E} (hreach : (bus E).Reach (fun _ _ => True) s) :
    pjsua_app.process.Reach (fun _ _ => True) s.process := by
  refine hreach.refines Bus.process rfl ?_
  intro s op t _ _ (hstep : s.step op = some t)
  cases op with
  | process op =>
    obtain ⟨p, hp, rfl⟩ := Option.map_eq_some_iff.mp hstep
    exact .inr ⟨op, trivial, hp⟩
  | send_event event =>
    cases hstep
    exact .inl rfl
  | recv i =>
    simp only [Bus.step] at hstep
    split at hstep
    · cases hstep
      exact .inl rfl
    · cases hstep
  | drop_rx i =>
    cases hstep
    exact .inl rfl

/-- However the calls of `new` and the drops of any number of apps interleave with
    the events of the callbacks: an app has received, in order, the events sent
    while its sender was installed, with the rest still in its channel, and no app
    has any of another's. These are events that came one right after the other:
    a sender is installed once, and nothing is sent elsewhere until it is cleared
    or replaced. While an app is live it gets each further one. -/
theorem events_delivered {s : Bus E} (hreach : (bus E).Reach (fun _ _ => True) s) (i : Nat) :
    (s.rx i).Holds (events_of i s.log) ∧ Together (·.1 = some i) s.log ∧
      ((s.process.inst i).installed = true → Latest (·.1 = some i) s.log ∧
        ∀ event, events_of i (s.send_event event).log = events_of i s.log ++ [event] ∧
          ∀ j, j ≠ i → (s.send_event event).rx j = s.rx j) := by
  have hinv := bus_inv hreach
  refine ⟨hinv.holds i, hinv.together i, fun hinstalled => ?_⟩
  have htx := event_tx_of_reach (bus_process hreach) i hinstalled
  refine ⟨hinv.latest i htx, fun event => ⟨?_, fun j hji => ?_⟩⟩
  · rw [show (s.send_event event).log = (s.process.event_tx, event) :: s.log from rfl, events_of_cons, if_pos htx]
  · rw [s.rx_send_event, htx, if_neg]
    exact fun h => hji (Option.some.inj h).symm

end Bus

/-- A call of `new` that goes through. -/
def app_new (i : Nat) : List (BusOp Nat) :=
  .process (.new i {}) :: List.replicate 8 (.process (.advance i 0))

def app_drop (i : Nat) : List (BusOp Nat) :=
  .process (.drop i) :: List.replicate 6 (.process (.advance i 0))

/-- Two apps after one another, with an event in the life of each and one in
    between. -/
def two_apps : List (BusOp Nat) :=
  app_new 0 ++ [.send_event 7, .recv 0] ++ app_drop 0 ++ [.send_event 8] ++ app_new 1 ++ [.send_event 9]

/-- One app after the other, with an event sent to each. The event sent in between,
    while no sender is installed, reaches neither. -/
theorem events_delivered_two_apps :
    ∃ s, (bus Nat).exec (bus Nat).start two_apps = some s ∧ s.process.inst 1 = .live ∧
      (s.rx 0).received = [7] ∧ (s.rx 1).queued = [9] ∧ (s.rx 0).Holds [7] ∧ (s.rx 1).Holds [9] ∧
      Latest (·.1 = some 1) s.log := by
  have hrun : ((bus Nat).exec (bus Nat).start two_apps).map (fun s =>
      (s.process.inst 1, (s.rx 0).received, (s.rx 1).queued, events_of 0 s.log, events_of 1 s.log)) =
      some (.live, [7], [9], [7], [9]) := by decide +kernel
  obtain ⟨s, hs, hfields⟩ := Option.map_eq_some_iff.mp hrun
  simp only [Prod.mk.injEq] at hfields
  obtain ⟨hlive, hreceived, hqueued, hfirst, hsecond⟩ := hfields
  have hreach := Machine.Reach.exec .start (Machine.admits_of_forall (fun _ _ => trivial) _ two_apps) hs
  have hone := events_delivered hreach 1
  have hlatest := (hone.2.2 (by rw [hlive]; rfl)).1
  exact ⟨s, hs, hlive, hreceived, hqueued, hfirst ▸ (events_delivered hreach 0).1, hsecond ▸ hone.1, hlatest⟩

end pjsua_rust.event
