import PjsuaRust.Transition.Machine
import PjsuaRust.Transition.Log

open transition

namespace pjsua_rust.pjsua_app

/-- The pair that `register_player_eof_callback` boxes. -/
structure EofData where
  tx : Nat
  id : Int
deriving DecidableEq, Repr

/-- A player of PJSUA, with the user data of the callback registered last:
    `fired` once that callback has been called with it. -/
structure Player where
  no_loop : Bool
  ended : Bool := false
  user_data : Option Nat := none
  fired : Bool := false
deriving DecidableEq, Repr

/-- What happens to a box once its address is with PJMEDIA. -/
inductive BoxEvent where
  | used (b : Nat)
  | freed (b : Nat)
deriving DecidableEq, Repr

/-- The players, every box that was ever made (its address is its place in the
    list), what happened to them, and what was sent through whose channel. -/
structure Players where
  player : Int → Option Player
  boxes : List EofData
  log : List BoxEvent
  sent : List (Nat × Int)

def Players.set (s : Players) (id : Int) (p : Option Player) : Players :=
  { s with player := Function.update s.player id p }

/-- `pjsua_player_create` has returned `status`, and `player_id` if that is 0. -/
def Players.create_player (s : Players) (no_loop : Bool) (status player_id : Int) : Except Int Int × Players :=
  if status ≠ 0 then (.error status, s)
  else (.ok player_id, s.set player_id (some { no_loop }))

def Players.destroy_player (s : Players) (id status : Int) : Except Int Unit × Players :=
  if status ≠ 0 then (.error status, s) else (.ok (), s.set id none)

/-- `pjmedia_wav_player_set_eof_cb2` puts the new user data in the place of the
    old, which it does not free. -/
def Players.pjmedia_wav_player_set_eof_cb2 (s : Players) (id : Int) (p : Player) (user_data : Nat) : Players :=
  s.set id (some { p with user_data := some user_data, fired := false })

/-- `pjsua_player_get_port` has returned `status`, and the port of `p` if that is
    0. -/
def Players.register_player_eof_callback (s : Players) (id : Int) (p : Player) (status : Int) (tx : Nat) :
    Except Int Unit × Players :=
  if status ≠ 0 then (.error status, s)
  else
    let user_data_ptr := s.boxes.length
    (.ok (), { s with boxes := s.boxes ++ [EofData.mk tx id] }.pjmedia_wav_player_set_eof_cb2 id p user_data_ptr)

/-- The pair is moved out of its box, which is freed. -/
def Players.player_eof_trampoline (s : Players) (usr_data : Nat) : Players :=
  { s with
    log := .freed usr_data :: .used usr_data :: s.log
    sent := (s.boxes[usr_data]?.toList.map fun data => (data.tx, data.id)) ++ s.sent }

inductive PlayerOp where
  | create_player (no_loop : Bool) (status player_id : Int)
  | register_player_eof_callback (id status : Int) (tx : Nat)
  | end_of_file (id : Int)
  | destroy_player (id status : Int)
deriving DecidableEq, Repr

/-- What the PJSUA call of an operation returns. -/
def PlayerOp.status : PlayerOp → Int
  | .create_player _ status _ | .register_player_eof_callback _ status _ | .destroy_player _ status => status
  | .end_of_file _ => 0

/-- PJSUA gives a new player an id that no player has, and only a player that
    exists has a port, can be destroyed, or reaches the end of its file: again and
    again if it loops, and once if not. -/
def Players.step (s : Players) : PlayerOp → Option Players
  | .create_player no_loop status player_id =>
    if status = 0 ∧ s.player player_id ≠ none then none
    else some (s.create_player no_loop status player_id).2
  | .register_player_eof_callback id status tx =>
    match s.player id with
    | none => if status = 0 then none else some s
    | some p => some (s.register_player_eof_callback id p status tx).2
  | .end_of_file id =>
    match s.player id with
    | none => none
    | some p =>
      if p.no_loop && p.ended then none
      else
        match p.user_data with
        | none => some (s.set id (some { p with ended := true }))
        | some user_data =>
          some ((s.set id (some { p with ended := true, fired := true })).player_eof_trampoline user_data)
  | .destroy_player id status =>
    if status = 0 ∧ s.player id = none then none
    else some (s.destroy_player id status).2

def players : Machine Players PlayerOp where
  start := { player := fun _ => none, boxes := [], log := [], sent := [] }
  step := Players.step

/-- Everything one step can do. -/
inductive PlayerStep (s : Players) : PlayerOp → Players → Prop where
  | failed {op : PlayerOp} (hstatus : op.status ≠ 0) : PlayerStep s op s
  | created {no_loop : Bool} {id : Int} (habsent : s.player id = none) :
      PlayerStep s (.create_player no_loop 0 id) (s.set id (some { no_loop }))
  | registered {id : Int} {tx : Nat} {p : Player} (hplayer : s.player id = some p) :
      PlayerStep s (.register_player_eof_callback id 0 tx)
        ({ s with boxes := s.boxes ++ [EofData.mk tx id] }.set id
          (some { p with user_data := some s.boxes.length, fired := false }))
  | unheard {id : Int} {p : Player} (hplayer : s.player id = some p) (hnone : p.user_data = none) :
      PlayerStep s (.end_of_file id) (s.set id (some { p with ended := true }))
  | called {id : Int} {p : Player} {b : Nat} (hplayer : s.player id = some p) (hdata : p.user_data = some b) :
      PlayerStep s (.end_of_file id)
        ((s.set id (some { p with ended := true, fired := true })).player_eof_trampoline b)
  | destroyed {id : Int} {p : Player} (hplayer : s.player id = some p) :
      PlayerStep s (.destroy_player id 0) (s.set id none)

/-- What a step can be, with all that it finds and leaves. A call that fails changes
    nothing, and PJSUA can only succeed on a player that it has. -/
theorem Players.step_inv {s t : Players} {op : PlayerOp} (hstep : s.step op = some t) : PlayerStep s op t := by
  cases op with
  | create_player no_loop status id =>
    simp only [Players.step, Players.create_player] at hstep
    split at hstep
    · cases hstep
    rename_i hfree
    split at hstep
    · rename_i hstatus
      cases hstep
      exact .failed hstatus
    · rename_i hstatus
      cases hstep
      obtain rfl := not_not.mp hstatus
      exact .created (by simpa using hfree)
  | register_player_eof_callback id status tx =>
    simp only [Players.step, Players.register_player_eof_callback] at hstep
    split at hstep
    · split at hstep
      · cases hstep
      · rename_i hstatus
        cases hstep
        exact .failed hstatus
    · rename_i p hplayer
      split at hstep
      · rename_i hstatus
        cases hstep
        exact .failed hstatus
      · rename_i hstatus
        cases hstep
        obtain rfl := not_not.mp hstatus
        exact .registered hplayer
  | end_of_file id =>
    simp only [Players.step] at hstep
    split at hstep
    · cases hstep
    rename_i p hplayer
    split at hstep
    · cases hstep
    split at hstep
    · rename_i hnone
      cases hstep
      exact .unheard hplayer hnone
    · rename_i b hdata
      cases hstep
      exact .called hplayer hdata
  | destroy_player id status =>
    simp only [Players.step, Players.destroy_player] at hstep
    split at hstep
    · cases hstep
    rename_i hexists
    split at hstep
    · rename_i hstatus
      cases hstep
      exact .failed hstatus
    · rename_i hstatus
      cases hstep
      obtain rfl := not_not.mp hstatus
      obtain ⟨p, hplayer⟩ := Option.ne_none_iff_exists'.mp (fun hnone => hexists ⟨rfl, hnone⟩)
      exact .destroyed hplayer

/-- The callback registered for a player was given the box `b`. -/
def Players.Holds (s : Players) (id : Int) (p : Player) (b : Nat) : Prop :=
  s.player id = some p ∧ p.user_data = some b

/-- A player that is changed holds what it then has; the others hold what they did. -/
theorem Players.holds_set {s : Players} {id id' : Int} {q : Option Player} {p : Player} {b : Nat} :
    (s.set id q).Holds id' p b ↔
      (id' = id ∧ q = some p ∧ p.user_data = some b) ∨ (id' ≠ id ∧ s.Holds id' p b) := by
  by_cases hid : id' = id
  · subst hid
    simp [Players.Holds, Players.set]
  · simp [Players.Holds, Players.set, hid]

/-- The boxes are used while they are allocated, freed at most once, and freed by
    the time they are no longer registered for a player. -/
structure Players.Owned (s : Players) : Prop where
  allocated : Logged (fun e past => ∀ b, e = .used b → BoxEvent.freed b ∉ past) s.log
  freed_once : ∀ b, s.log.count (.freed b) ≤ 1
  released : ∀ b < s.boxes.length, .freed b ∈ s.log ∨ ∃ id p, s.Holds id p b

/-- No registered callback is called a second time, or given up before it was
    called. -/
def FiresOnce (s : Players) : PlayerOp → Prop
  | .create_player .. => True
  | .end_of_file id => ∀ p b, s.Holds id p b → p.fired = false
  | .register_player_eof_callback id status _ | .destroy_player id status =>
    status = 0 → ∀ p b, s.Holds id p b → p.fired = true

/-- What holds of the boxes as long as every callback is called once. -/
structure Players.Inv (s : Players) : Prop where
  owned : s.Owned
  made : ∀ b, .freed b ∈ s.log → b < s.boxes.length
  registered : ∀ id p b, s.Holds id p b → b < s.boxes.length ∧ (p.fired = true ↔ .freed b ∈ s.log)
  apart : ∀ id id' p p' b, s.Holds id p b → s.Holds id' p' b → id = id'

/-- There are no players and no boxes at first. -/
theorem Players.inv_start : players.start.Inv where
  owned := ⟨logged_nil, fun _ => Nat.zero_le 1, fun b hb => absurd hb (Nat.not_lt_zero b)⟩
  made _ hfreed := absurd hfreed List.not_mem_nil
  registered _ _ _ hholds := nomatch hholds.1
  apart _ _ _ _ _ hholds := nomatch hholds.1

theorem Players.holds_set_of_ne {s : Players} {id id' : Int} (hid : id' ≠ id) (q : Option Player)
    {p : Player} {b : Nat} :
    (s.set id q).Holds id' p b ↔ s.Holds id' p b := by
  rw [Players.holds_set, or_iff_right (fun h => hid h.1), and_iff_right hid]

/-- A step that concerns one player keeps the invariant if it leaves the others
    and their boxes alone, and what it leaves at the player is in order. -/
theorem Players.Inv.replace {s t : Players} (hinv : s.Inv) (id : Int)
    (hplayer : ∀ id', id' ≠ id → t.player id' = s.player id')
    (hlogs : ∀ id' p b, id' ≠ id → s.Holds id' p b → (.freed b ∈ s.log ↔ .freed b ∈ t.log))
    (hself : ∀ p b, t.Holds id p b → b < t.boxes.length ∧ (p.fired = true ↔ .freed b ∈ t.log) ∧
      ∀ id' p', id' ≠ id → ¬s.Holds id' p' b)
    (hboxes : s.boxes.length ≤ t.boxes.length) (hmade : ∀ b, .freed b ∈ t.log → b < t.boxes.length)
    (howned : t.Owned) : t.Inv := by
  have hothers : ∀ id' p b, id' ≠ id → (t.Holds id' p b ↔ s.Holds id' p b) := fun id' p b hid => by
    rw [Players.Holds, Players.Holds, hplayer id' hid]
  refine ⟨howned, hmade, ?_, ?_⟩
  · intro id' p b hheld
    by_cases hid : id' = id
    · subst hid
      exact ⟨(hself p b hheld).1, (hself p b hheld).2.1⟩
    · have hheld' := (hothers id' p b hid).mp hheld
      obtain ⟨hold, hiff⟩ := hinv.registered id' p b hheld'
      exact ⟨hold.trans_le hboxes, hiff.trans (hlogs id' p b hid hheld')⟩
  · intro id' id'' p p' b hheld hheld'
    by_cases hid : id' = id
    · subst hid
      by_contra hne
      exact (hself p b hheld).2.2 id'' p' (Ne.symm hne) ((hothers id'' p' b (Ne.symm hne)).mp hheld')
    · have hold := (hothers id' p b hid).mp hheld
      by_cases hid' : id'' = id
      · subst hid'
        exact absurd hold ((hself p' b hheld').2.2 id' p hid)
      · exact hinv.apart id' id'' p p' b hold ((hothers id'' p' b hid').mp hheld')

/-- A player without user data may take the place of one that has none, or whose
    box is freed. -/
theorem Players.Inv.set_empty {s : Players} (hinv : s.Inv) {id : Int} {q : Option Player}
    (hempty : ∀ p, q = some p → p.user_data = none)
    (hfreed : ∀ p b, s.Holds id p b → .freed b ∈ s.log) : (s.set id q).Inv := by
  have hnone : ∀ p b, ¬(s.set id q).Holds id p b := by
    intro p b hheld
    rcases Players.holds_set.mp hheld with ⟨-, hq, hdata⟩ | ⟨hid, -⟩
    · rw [hempty p hq] at hdata
      cases hdata
    · exact hid rfl
  refine hinv.replace id (fun id' hid => Function.update_of_ne hid _ s.player) (fun _ _ _ _ _ => Iff.rfl)
    (fun p b hheld => absurd hheld (hnone p b)) (Nat.le_refl _) hinv.made ?_
  refine ⟨hinv.owned.allocated, hinv.owned.freed_once, ?_⟩
  intro b hb
  rcases hinv.owned.released b hb with hgone | ⟨id', p, hheld⟩
  · exact .inl hgone
  · by_cases hid : id' = id
    · subst hid
      exact .inl (hfreed p b hheld)
    · exact .inr ⟨id', p, (Players.holds_set_of_ne hid q).mpr hheld⟩

/-- A new box may take the place of none, or of one that is freed: the box before it
    would be lost, since the player holds the only pointer to it. -/
theorem Players.Inv.register {s : Players} (hinv : s.Inv) {id : Int} {p : Player} (data : EofData)
    (hfreed : ∀ p b, s.Holds id p b → .freed b ∈ s.log) :
    ({ s with boxes := s.boxes ++ [data] }.set id
      (some { p with user_data := some s.boxes.length, fired := false })).Inv := by
  have hlength : (s.boxes ++ [data]).length = s.boxes.length + 1 := List.length_append
  refine hinv.replace id (fun id' hid => Function.update_of_ne hid _ s.player) (fun _ _ _ _ _ => Iff.rfl) ?_ ?_ ?_ ?_
  · intro p' b hheld
    rcases Players.holds_set.mp hheld with ⟨-, hq, hdata⟩ | ⟨hid, -⟩
    · cases hq
      cases hdata
      refine ⟨hlength.ge, iff_of_false Bool.false_ne_true ?_, ?_⟩
      · exact fun hgone => absurd (hinv.made _ hgone) (Nat.lt_irrefl _)
      · exact fun id' p' _ hother => absurd (hinv.registered id' p' _ hother).1 (Nat.lt_irrefl _)
    · exact absurd rfl hid
  · exact Nat.le_of_lt hlength.ge
  · exact fun b hgone => (hinv.made b hgone).trans_le (Nat.le_of_lt hlength.ge)
  · refine ⟨hinv.owned.allocated, hinv.owned.freed_once, ?_⟩
    intro b hb
    by_cases hnew : b = s.boxes.length
    · exact .inr ⟨id, _, Players.holds_set.mpr (.inl ⟨rfl, rfl, by rw [hnew]⟩)⟩
    have hold : b < s.boxes.length := by
      have : b < (s.boxes ++ [data]).length := hb
      omega
    rcases hinv.owned.released b hold with hgone | ⟨id', p', hheld⟩
    · exact .inl hgone
    · by_cases hid : id' = id
      · subst hid
        exact .inl (hfreed p' b hheld)
      · exact .inr ⟨id', p', (Players.holds_set_of_ne hid _).mpr hheld⟩

/-- The first call of a callback frees its box. The pointer in PJSUA stays, and
    whatever follows it next finds a box that is gone. -/
theorem Players.Inv.called {s : Players} (hinv : s.Inv) {id : Int} {p : Player} {b : Nat}
    (hplayer : s.player id = some p) (hdata : p.user_data = some b) (hfirst : p.fired = false) :
    ((s.set id (some { p with ended := true, fired := true })).player_eof_trampoline b).Inv := by
  have hheld : s.Holds id p b := ⟨hplayer, hdata⟩
  have hbox := (hinv.registered id p b hheld).1
  have hfresh : .freed b ∉ s.log := by
    rw [← (hinv.registered id p b hheld).2, hfirst]
    exact Bool.false_ne_true
  have hmem : ∀ b', BoxEvent.freed b' ∈ .freed b :: .used b :: s.log ↔ b' = b ∨ .freed b' ∈ s.log := by
    intro b'
    simp
  refine hinv.replace id (fun id' hid => Function.update_of_ne hid _ s.player) ?_ ?_ ?_ ?_ ?_
  · intro id' p' b' hid hother
    have hne : b' ≠ b := by
      rintro rfl
      exact hid (hinv.apart id' id p' p b' hother hheld)
    exact ((hmem b').trans (or_iff_right hne)).symm
  · intro p' b' hheld'
    rcases Players.holds_set.mp hheld' with ⟨-, hq, hdata'⟩ | ⟨hid, -⟩
    · cases hq
      obtain rfl : b' = b := Option.some.inj (hdata'.symm.trans hdata)
      refine ⟨hbox, iff_of_true rfl ((hmem b').mpr (.inl rfl)), ?_⟩
      exact fun id' p' hid hother => hid (hinv.apart id' id p' p b' hother hheld)
    · exact absurd rfl hid
  · exact Nat.le_refl _
  · intro b' hgone
    rcases (hmem b').mp hgone with rfl | hgone
    · exact hbox
    · exact hinv.made b' hgone
  · refine ⟨?_, ?_, ?_⟩
    · refine logged_cons.mpr ⟨fun _ h => (nomatch h), logged_cons.mpr ⟨fun b' h => ?_, hinv.owned.allocated⟩⟩
      cases h
      exact hfresh
    · intro b'
      change (BoxEvent.freed b :: .used b :: s.log).count (.freed b') ≤ 1
      by_cases hb : b = b'
      · subst hb
        rw [List.count_cons_self, List.count_cons_of_ne (by simp), List.count_eq_zero.mpr hfresh]
      · rw [List.count_cons_of_ne (by simpa using hb), List.count_cons_of_ne (by simp)]
        exact hinv.owned.freed_once b'
    · intro b' hb'
      rcases hinv.owned.released b' hb' with hgone | ⟨id', p', hheld'⟩
      · exact .inl ((hmem b').mpr (.inr hgone))
      · by_cases hid : id' = id
        · subst hid
          obtain rfl := Option.some.inj (hplayer.symm.trans hheld'.1)
          exact .inr ⟨id', _, Players.holds_set.mpr (.inl ⟨rfl, rfl, hheld'.2⟩)⟩
        · exact .inr ⟨id', p', (Players.holds_set_of_ne hid _).mpr hheld'⟩

/-- One case for each call; the conditions are on the box that the call may free or
    lose. -/
theorem Players.Inv.step {s t : Players} {op : PlayerOp} (hinv : s.Inv) (hok : FiresOnce s op)
    (hstep : s.step op = some t) : t.Inv := by
  have hfreed : ∀ {id p b}, s.Holds id p b → p.fired = true → .freed b ∈ s.log :=
    fun hheld hfired => (hinv.registered _ _ _ hheld).2.mp hfired
  cases Players.step_inv hstep with
  | failed hstatus => exact hinv
  | created habsent =>
    apply hinv.set_empty
    · intro p hp
      cases hp
      rfl
    · intro p b hheld
      exact nomatch habsent.symm.trans hheld.1
  | registered hplayer =>
    apply hinv.register
    intro p b hheld
    exact hfreed hheld (hok rfl p b hheld)
  | unheard hplayer hnone =>
    apply hinv.set_empty
    · intro p hp
      cases hp
      exact hnone
    · intro p b hheld
      obtain rfl := Option.some.inj (hplayer.symm.trans hheld.1)
      exact nomatch hnone.symm.trans hheld.2
  | called hplayer hdata => exact hinv.called hplayer hdata (hok _ _ ⟨hplayer, hdata⟩)
  | destroyed hplayer =>
    apply hinv.set_empty
    · intro p hp
      cases hp
    · intro p b hheld
      exact hfreed hheld (hok rfl p b hheld)

/-- The invariant holds as long as every callback is called once. -/
theorem Players.inv_of_reach {s : Players} (hreach : players.Reach FiresOnce s) : s.Inv :=
  hreach.invariant Players.inv_start fun _ _ _ _ hok hstep hinv => hinv.step hok hstep

/-- The box of a callback that was not called is lost with its registration. So
    where the boxes are still owned after a player gave its callback up, that one
    was called before. -/
theorem Players.Inv.fired_of_owned {s t : Players} {id : Int} {q : Option Player} (hinv : s.Inv)
    (howned : (t.set id q).Owned) (hlog : t.log = s.log) (hplayer : t.player = s.player)
    (hboxes : s.boxes.length ≤ t.boxes.length) (hq : ∀ p b, q = some p → p.user_data = some b → s.boxes.length ≤ b)
    {p : Player} {b : Nat} (hheld : s.Holds id p b) : p.fired = true := by
  obtain ⟨hmade, hiff⟩ := hinv.registered id p b hheld
  rcases howned.released b (Nat.lt_of_lt_of_le hmade hboxes) with hgone | ⟨id', p', hheld'⟩
  · rw [hiff, ← hlog]
    exact hgone
  · rcases Players.holds_set.mp hheld' with ⟨-, hnew, hdata⟩ | ⟨hid, hother⟩
    · exact absurd hmade (Nat.not_lt.mpr (hq p' b hnew hdata))
    · rw [Players.Holds, hplayer] at hother
      exact absurd (hinv.apart id' id p' p b hother hheld) hid

/-- A step after which the boxes are still owned called or gave up no callback
    out of turn. -/
theorem Players.Inv.fires_once {s t : Players} {op : PlayerOp} (hinv : s.Inv) (hstep : s.step op = some t)
    (howned : t.Owned) : FiresOnce s op := by
  cases Players.step_inv hstep with
  | failed hstatus =>
    cases op with
    | create_player no_loop status id => trivial
    | end_of_file id => exact absurd rfl hstatus
    | register_player_eof_callback id status tx => exact fun h => absurd h hstatus
    | destroy_player id status => exact fun h => absurd h hstatus
  | created habsent => trivial
  | @registered id tx p hplayer =>
    intro _ p' b hheld
    refine hinv.fired_of_owned howned rfl rfl (List.length_append ▸ Nat.le_add_right _ 1) ?_ hheld
    intro p'' b' hp'' hdata
    cases hp''
    cases hdata
    exact Nat.le_refl _
  | unheard hplayer hnone =>
    intro p' b hheld
    obtain rfl := Option.some.inj (hplayer.symm.trans hheld.1)
    exact nomatch hnone.symm.trans hheld.2
  | @called id p b hplayer hdata =>
    intro p' b' hheld
    obtain rfl := Option.some.inj (hplayer.symm.trans hheld.1)
    have hunused : BoxEvent.freed b ∉ s.log := (logged_cons.mp (logged_cons.mp howned.allocated).2).1 b rfl
    rw [← (hinv.registered id p b ⟨hplayer, hdata⟩).2] at hunused
    exact Bool.eq_false_of_not_eq_true hunused
  | destroyed hplayer =>
    intro _ p' b hheld
    exact hinv.fired_of_owned howned rfl rfl (Nat.le_refl _) (fun _ _ h => nomatch h) hheld

/-- From such a state, the next step keeps the boxes owned exactly if it meets the
    condition. -/
theorem Players.owned_iff {s t : Players} {op : PlayerOp} (hreach : players.Reach FiresOnce s)
    (hstep : s.step op = some t) : t.Owned ↔ FiresOnce s op := by
  have hinv := Players.inv_of_reach hreach
  constructor
  · exact hinv.fires_once hstep
  · exact fun hok => (hinv.step hok hstep).owned

/-- The boxes are owned throughout a history exactly if each registered callback is
    called once before it is replaced or its player destroyed, and never again. The
    history has any number of players, looping or not, with failing calls among
    them. A second call frees its box twice, and one that never comes leaves it
    behind. -/
theorem eof_boxes_owned_iff {ops : List PlayerOp} {t : Players} (hexec : players.exec players.start ops = some t) :
    players.EachStep (fun _ _ t => t.Owned) players.start ops ↔ players.Admits FiresOnce players.start ops :=
  Machine.Reach.start.eachStep_iff (fun _ _ _ => Players.owned_iff) hexec

/-- A player that does not loop, destroyed after its end. -/
theorem eof_boxes_owned_iff_no_loop :
    let ops := [.create_player true 0 0, .register_player_eof_callback 0 0 7, .end_of_file 0, .destroy_player 0 0]
    players.EachStep (fun _ _ t => t.Owned) players.start ops ↔ players.Admits FiresOnce players.start ops :=
  eof_boxes_owned_iff rfl

/-- A looping player comes to its end twice: the callback frees its box at the first
    end, and uses and frees it again at the second. -/
theorem not_eof_boxes_owned :
    ¬ ∀ (ops : List PlayerOp) (t : Players), players.exec players.start ops = some t →
      players.EachStep (fun _ _ t => t.Owned) players.start ops := by
  intro hclaim
  have hends := hclaim
    [.create_player false 0 0, .register_player_eof_callback 0 0 7, .end_of_file 0, .end_of_file 0] _ rfl
  have howned := ((((hends _ rfl).2 _ rfl).2 _ rfl).2 _ rfl).1
  exact absurd (howned.freed_once 0) (by decide)

end pjsua_rust.pjsua_app
