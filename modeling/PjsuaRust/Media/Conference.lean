import PjsuaRust.Media.Port

open transition

namespace pjsua_rust.media_port

/-- As far as the pools go, nothing has happened. -/
structure SamePools (pj pj' : Pjmedia) : Prop where
  pools : pj'.pools = pj.pools
  handed : pj'.handed = pj.handed
  released : pj'.released = pj.released

/-- Nor has it as far as the numbers go. -/
structure SameBooks (pj pj' : Pjmedia) : Prop extends SamePools pj pj' where
  slots : pj'.slots = pj.slots

/-- Two steps that leave the books alone do so together. -/
theorem SameBooks.trans {pj pj' pj'' : Pjmedia} (h : SameBooks pj pj') (h' : SameBooks pj' pj'') :
    SameBooks pj pj'' :=
  ⟨⟨h'.pools.trans h.pools, h'.handed.trans h.handed, h'.released.trans h.released⟩, h'.slots.trans h.slots⟩

/-- Neither the destruction of a port, -/
theorem Kind.on_destroy_books (kind : Kind) (pj : Pjmedia) : SameBooks pj (kind.on_destroy pj) := by
  cases kind with
  | CustomPort =>
    simp only [Kind.on_destroy, trampoline_on_destroy]
    split <;> exact ⟨⟨rfl, rfl, rfl⟩, rfl⟩
  | ToneGenerator pool => exact ⟨⟨rfl, rfl, rfl⟩, rfl⟩

/-- nor a frame of it, -/
theorem Kind.frame_books (kind : Kind) (pj : Pjmedia) : SameBooks pj (kind.frame pj) := by
  cases kind <;> exact ⟨⟨rfl, rfl, rfl⟩, rfl⟩

/-- nor a reference that is given back, -/
theorem dec_ref_books (kind : Kind) (pj : Pjmedia) (count : Nat) :
    SameBooks pj (pj_grp_lock_dec_ref kind pj count) := by
  have hcount : SameBooks pj { pj with grp_lock := some (count - 1) } := ⟨⟨rfl, rfl, rfl⟩, rfl⟩
  unfold pj_grp_lock_dec_ref
  dsimp only
  split
  · exact hcount.trans (kind.on_destroy_books _)
  · exact hcount

/-- nor the destroy call, -/
theorem port_destroy_books (kind : Kind) (pj : Pjmedia) : SameBooks pj (pjmedia_port_destroy kind pj) := by
  have hused : SameBooks pj { pj with log := .used_port :: pj.log } := ⟨⟨rfl, rfl, rfl⟩, rfl⟩
  unfold pjmedia_port_destroy
  dsimp only
  split
  · exact hused.trans (dec_ref_books kind _ _)
  · exact hused.trans (kind.on_destroy_books _)

/-- nor a removal that is carried out changes what is registered or which pools
    there are. -/
theorem op_remove_port_books (kind : Kind) (pj : Pjmedia) (port : Int) :
    SameBooks pj (op_remove_port kind pj port) := by
  have hused : SameBooks pj { pj with removing := pj.removing.erase port, log := .used_port :: pj.log } :=
    ⟨⟨rfl, rfl, rfl⟩, rfl⟩
  unfold op_remove_port
  dsimp only
  split
  · exact hused.trans (dec_ref_books kind _ _)
  · exact hused

/-- Every pool that was handed out is either the one kept in `conf_pool`, and not
    released, or released once. -/
structure Accounted (kind : Kind) (obj : Member) (pj : Pjmedia) : Prop where
  made : ∀ pool ∈ pj.released, pool < pj.pools
  handed : ∀ pool ∈ pj.handed, pool < pj.pools
  own : ∀ pool, kind = .ToneGenerator pool → pool < pj.pools ∧ pool ∉ pj.handed
  kept : ∀ pool, obj.conf_pool = some pool → pool ∈ pj.handed ∧ pool ∉ pj.released
  released : ∀ pool ∈ pj.handed, obj.conf_pool = some pool ∨ pj.released.count pool = 1

/-- The account of the pools depends on nothing else than which pools there are and
    which one the port keeps; not on the slots of the bridge, nor on the port's
    number. -/
theorem Accounted.of_same {kind : Kind} {self self' : Member} {pj pj' : Pjmedia} (h : Accounted kind self pj)
    (hpools : SamePools pj pj') (hpool : self'.conf_pool = self.conf_pool) : Accounted kind self' pj' := by
  obtain ⟨hpools, hhanded, hreleased⟩ := hpools
  constructor
  · rw [hpools, hreleased]
    exact h.made
  · rw [hpools, hhanded]
    exact h.handed
  · rw [hpools, hhanded]
    exact h.own
  · rw [hpool, hhanded, hreleased]
    exact h.kept
  · rw [hpool, hhanded, hreleased]
    exact h.released

/-- The release of a pool that was not handed out: the one that an addition made and
    could not use. -/
theorem Accounted.release_other {kind : Kind} {self : Member} {pj : Pjmedia} (h : Accounted kind self pj)
    {pool : Nat} (hmade : pool < pj.pools) (hother : pool ∉ pj.handed) :
    Accounted kind self (pj_pool_release pj pool) where
  made p hp := by
    rcases List.mem_cons.mp hp with rfl | hp
    · exact hmade
    · exact h.made p hp
  handed := h.handed
  own := h.own
  kept p hp := by
    obtain ⟨hhanded, hfresh⟩ := h.kept p hp
    refine ⟨hhanded, ?_⟩
    rw [pj_pool_release, List.mem_cons, not_or]
    exact ⟨fun heq => hother (heq ▸ hhanded), hfresh⟩
  released p hp := by
    have hne : pool ≠ p := fun heq => hother (heq ▸ hp)
    rw [pj_pool_release, List.count_cons_of_ne hne]
    exact h.released p hp

/-- A pool that `conf_add_port` makes is a new one. -/
theorem Accounted.make {kind : Kind} {self : Member} {pj : Pjmedia} (h : Accounted kind self pj) :
    Accounted kind self { pj with pools := pj.pools + 1 } where
  made p hp := Nat.lt_succ_of_lt (h.made p hp)
  handed p hp := Nat.lt_succ_of_lt (h.handed p hp)
  own p hp := ⟨Nat.lt_succ_of_lt (h.own p hp).1, (h.own p hp).2⟩
  kept := h.kept
  released := h.released

/-- A registration that fails gives its new pool back. -/
theorem Accounted.add_failed {kind : Kind} {self : Member} {pj : Pjmedia} (h : Accounted kind self pj) :
    Accounted kind self (pj_pool_release { pj with pools := pj.pools + 1 } pj.pools) :=
  h.make.release_other (Nat.lt_succ_self _) fun hin => Nat.lt_irrefl _ (h.handed _ hin)

/-- Where no pool is kept, a new one may be. It is one that was never handed out
    before, since the pools are numbered as they are made. -/
theorem Accounted.added {kind : Kind} {self self' : Member} {pj pj' : Pjmedia} (h : Accounted kind self pj)
    (hnone : self.conf_pool = none) (hself : self'.conf_pool = some pj.pools) (hpools : pj'.pools = pj.pools + 1)
    (hhanded : pj'.handed = pj.pools :: pj.handed) (hreleased : pj'.released = pj.released) :
    Accounted kind self' pj' := by
  constructor
  · intro p hp
    rw [hreleased] at hp
    have := h.made p hp
    omega
  · intro p hp
    rw [hhanded] at hp
    rcases List.mem_cons.mp hp with rfl | hp
    · omega
    · have := h.handed p hp
      omega
  · intro p hp
    obtain ⟨hmade, hother⟩ := h.own p hp
    rw [hhanded, List.mem_cons, not_or]
    exact ⟨by omega, by omega, hother⟩
  · intro p hp
    obtain rfl : pj.pools = p := by simpa [hself] using hp
    rw [hhanded, hreleased]
    exact ⟨List.mem_cons_self, fun hin => Nat.lt_irrefl _ (h.made _ hin)⟩
  · intro p hp
    rw [hhanded] at hp
    rw [hself, hreleased]
    rcases List.mem_cons.mp hp with rfl | hp
    · exact .inl rfl
    · rcases h.released p hp with hkept | honce
      · rw [hnone] at hkept
        cases hkept
      · exact .inr honce

/-- Both ways to leave the bridge release the pool that is kept, and forget it, so
    that it cannot be released twice. -/
theorem Accounted.release_conf_pool {kind : Kind} {self : Member} {pj : Pjmedia} (h : Accounted kind self pj) :
    Accounted kind (self.release_conf_pool pj).1 (self.release_conf_pool pj).2 := by
  unfold Member.release_conf_pool
  cases hpool : self.conf_pool with
  | none => exact h
  | some pool =>
    obtain ⟨hhanded, hfresh⟩ := h.kept pool hpool
    dsimp only
    refine ⟨?_, h.handed, h.own, fun p hp => (nomatch hp), ?_⟩
    · intro p hp
      rcases List.mem_cons.mp hp with rfl | hp
      · exact h.handed p hhanded
      · exact h.made p hp
    · intro p hp
      right
      dsimp only [pj_pool_release]
      by_cases heq : pool = p
      · subst heq
        rw [List.count_cons_self, List.count_eq_zero.mpr hfresh]
      · rw [List.count_cons_of_ne heq]
        refine (h.released p hp).resolve_left fun hkept => heq ?_
        exact Option.some.inj (hpool.symm.trans hkept)

/-- A pool is given back once, and forgotten. The slots of the bridge are not looked
    at. -/
theorem Member.release_conf_pool_spec (self : Member) (pj : Pjmedia) :
    (self.release_conf_pool pj).1 = { self with conf_pool := none } ∧
      (self.release_conf_pool pj).2.slots = pj.slots := by
  unfold Member.release_conf_pool
  cases hpool : self.conf_pool with
  | none =>
    obtain ⟨conf_port, conf_pool⟩ := self
    cases hpool
    exact ⟨rfl, rfl⟩
  | some pool => exact ⟨rfl, rfl⟩

/-- After leaving, the object knows of no number and no pool. -/
theorem Member.leave_conference_self (self : Member) (pj : Pjmedia) (status : Int) :
    (self.leave_conference pj status).1 = {} := by
  unfold Member.leave_conference
  cases hport : self.conf_port with
  | none => simp only [(self.release_conf_pool_spec pj).1, hport]
  | some port => exact (Member.release_conf_pool_spec _ _).1

/-- Its number was the only one in the bridge, and is not there any more. A removal
    that fails would leave it, so the status is assumed to be zero where there is a
    number. -/
theorem Member.leave_conference_slots {self : Member} {pj : Pjmedia} {status : Int}
    (hslots : pj.slots = self.conf_port.toList) (hstatus : self.conf_port ≠ none → status = 0) :
    (self.leave_conference pj status).2.slots = [] := by
  unfold Member.leave_conference
  cases hport : self.conf_port with
  | none =>
    rw [hport] at hslots
    exact (self.release_conf_pool_spec pj).2.trans hslots
  | some port =>
    obtain rfl := hstatus (by simp [hport])
    rw [hport] at hslots
    refine (Member.release_conf_pool_spec _ _).2.trans ?_
    change pj.slots.erase port = []
    rw [hslots, Option.toList_some, List.erase_cons_head]

/-- In a drop, a removal that fails leaves the port registered, although the object
    forgets its number. -/
theorem Member.leave_conference_failed (self : Member) (pj : Pjmedia) {status : Int} (hstatus : status ≠ 0) :
    (self.leave_conference pj status).2.slots = pj.slots := by
  unfold Member.leave_conference
  cases hport : self.conf_port with
  | none => exact (self.release_conf_pool_spec pj).2
  | some port =>
    refine (Member.release_conf_pool_spec _ _).2.trans ?_
    rw [conf_remove_port, if_pos hstatus]

theorem Member.leave_conference_slots_le (self : Member) (pj : Pjmedia) (status : Int) :
    (self.leave_conference pj status).2.slots.length ≤ pj.slots.length := by
  unfold Member.leave_conference
  cases hport : self.conf_port with
  | none => exact ((congrArg List.length (self.release_conf_pool_spec pj).2)).le
  | some port =>
    refine (congrArg List.length (Member.release_conf_pool_spec _ _).2).le.trans ?_
    unfold conf_remove_port
    split
    · exact Nat.le_refl _
    · exact List.length_erase_le

/-- What both drops begin with gives back the pool of the registration, whether the
    removal fails or not. -/
theorem Accounted.leave_conference {kind : Kind} {self : Member} {pj : Pjmedia} (h : Accounted kind self pj)
    (status : Int) :
    Accounted kind (self.leave_conference pj status).1 (self.leave_conference pj status).2 := by
  unfold Member.leave_conference
  cases hport : self.conf_port with
  | none => exact h.release_conf_pool
  | some port =>
    apply Accounted.release_conf_pool
    refine h.of_same ?_ rfl
    unfold conf_remove_port
    split
    · exact ⟨rfl, rfl, rfl⟩
    · exact ⟨rfl, rfl, rfl⟩

/-- A drop is a leave, as far as the numbers go, and releases what is its own. It
    forgets its number also where the removal failed. -/
theorem Kind.drop_spec (kind : Kind) (self : Member) (pj : Pjmedia) (status : Int) :
    (kind.drop self pj status).1 = {} ∧
      (kind.drop self pj status).2.slots = (self.leave_conference pj status).2.slots := by
  cases kind with
  | CustomPort =>
    refine ⟨self.leave_conference_self pj status, ?_⟩
    exact (port_destroy_books .CustomPort _).slots
  | ToneGenerator pool =>
    refine ⟨self.leave_conference_self pj status, ?_⟩
    exact (port_destroy_books (.ToneGenerator pool) _).slots

/-- A drop gives back all pools that are left, for both kinds of port, whatever the
    removal comes to. -/
theorem Accounted.drop {kind : Kind} {self : Member} {pj : Pjmedia} (h : Accounted kind self pj) (status : Int) :
    Accounted kind (kind.drop self pj status).1 (kind.drop self pj status).2 := by
  have hleft := h.leave_conference status
  cases kind with
  | CustomPort => exact hleft.of_same (port_destroy_books .CustomPort _).toSamePools rfl
  | ToneGenerator pool =>
    have hdestroyed := hleft.of_same (port_destroy_books (.ToneGenerator pool) _).toSamePools rfl
    obtain ⟨hmade, hother⟩ := hdestroyed.own pool rfl
    exact hdestroyed.release_other hmade hother

/-- What the bridge says about the object is what the object says about itself,
    one step after the other. -/
structure Mirrors (kind : Kind) (s : Conference) (op : ConfOp) (t : Conference) : Prop where
  conf_port : t.dropped = false → ∀ port, t.self.conf_port = some port ↔ port ∈ t.pj.slots
  refused : ∀ status err, op = .remove_from_conference status →
    (kind.remove_from_conference s.self s.pj status).1 = .error err → t.self = s.self
  once : t.pj.slots.length ≤ 1
  released : ∀ pool ∈ t.pj.handed,
    t.pj.released.count pool ≤ 1 ∧ (t.dropped = true → t.pj.released.count pool = 1)

/-- No removal of the port from the bridge fails, before its drop. -/
def RemovesWhole (s : Conference) : ConfOp → Prop
  | .remove_from_conference status => s.self.conf_port ≠ none → status = 0
  | _ => True

/-- Nor does the one in its drop. -/
def DropsWhole (s : Conference) : ConfOp → Prop
  | .drop status => s.self.conf_port ≠ none → status = 0
  | _ => True

/-- What holds as long as no removal fails. -/
structure Conference.Inv (kind : Kind) (s : Conference) : Prop where
  registered : s.dropped = false → s.pj.slots = s.self.conf_port.toList
  once : s.pj.slots.length ≤ 1
  pooled : s.self.conf_port = none ↔ s.self.conf_pool = none
  dropped : s.dropped = true → s.self = {}
  accounted : Accounted kind s.self s.pj

/-- A port that was just made is not registered. -/
theorem Conference.inv_start (kind : Kind) : (conference kind).start.Inv kind where
  registered _ := rfl
  once := Nat.zero_le 1
  pooled := iff_of_true rfl rfl
  dropped h := nomatch h
  accounted := by
    refine ⟨fun p hp => absurd hp List.not_mem_nil, fun p hp => absurd hp List.not_mem_nil, ?_,
      fun p hp => (nomatch hp), fun p hp => absurd hp List.not_mem_nil⟩
    rintro p rfl
    exact ⟨Nat.lt_succ_self p, List.not_mem_nil⟩

/-- What leaves the books alone keeps the invariant. -/
theorem Conference.Inv.of_same {kind : Kind} {s : Conference} (hinv : s.Inv kind) {pj : Pjmedia}
    (hbooks : SameBooks s.pj pj) : Conference.Inv kind { s with pj } where
  registered := by
    rw [hbooks.slots]
    exact hinv.registered
  once := by
    rw [hbooks.slots]
    exact hinv.once
  pooled := hinv.pooled
  dropped := hinv.dropped
  accounted := hinv.accounted.of_same hbooks.toSamePools rfl

/-- One case for each operation. Only a removal needs the condition, and the one in
    the drop does not. -/
theorem Conference.Inv.step {kind : Kind} {s t : Conference} {op : ConfOp} (hinv : s.Inv kind)
    (hok : RemovesWhole s op) (hstep : s.step kind op = some t) : t.Inv kind := by
  cases Conference.step_inv hstep with
  | not_added hlive hrefused => exact hinv
  | add_failed hlive hnone hpool hstatus =>
    exact ⟨hinv.registered, hinv.once, hinv.pooled, hinv.dropped, hinv.accounted.add_failed⟩
  | added hlive hnone hpool hstatus hfresh =>
    have hslots : s.pj.slots = [] := by rw [hinv.registered hlive, hnone, Option.toList_none]
    refine ⟨fun _ => ?_, ?_, by simp, fun hdropped => ?_, ?_⟩
    · rw [hslots]
      rfl
    · rw [hslots]
      exact Nat.le_refl 1
    · exact absurd (hlive.symm.trans hdropped) Bool.false_ne_true
    · exact hinv.accounted.added (hinv.pooled.mp hnone) rfl rfl rfl rfl
  | remove_failed hlive hport hstatus => exact absurd (hok (by simp [hport])) hstatus
  | removed hlive hstatus =>
    have hself := s.self.leave_conference_self s.pj
    have hslots := Member.leave_conference_slots (hinv.registered hlive) hstatus
    refine ⟨fun _ => ?_, ?_, ?_, fun _ => hself _, hinv.accounted.leave_conference _⟩
    · dsimp only
      rw [hslots, hself]
      rfl
    · dsimp only
      rw [hslots]
      exact Nat.zero_le 1
    · dsimp only
      rw [hself]
      exact iff_of_true rfl rfl
  | @dropped status hlive =>
    obtain ⟨hself, hslots⟩ := kind.drop_spec s.self s.pj status
    refine ⟨fun hfalse => (nomatch hfalse), ?_, ?_, fun _ => hself, hinv.accounted.drop status⟩
    · dsimp only
      rw [hslots]
      exact (s.self.leave_conference_slots_le s.pj status).trans hinv.once
    · dsimp only
      rw [hself]
      exact iff_of_true rfl rfl
  | op_remove_port hqueued => exact hinv.of_same (op_remove_port_books kind s.pj _)
  | frame hheld => exact hinv.of_same (kind.frame_books s.pj)

/-- A step that leaves the books right removed nothing by half. Of the state before
    it only the invariant is assumed; the operation and its statuses are any. -/
theorem Conference.mirrors_iff {kind : Kind} {s t : Conference} {op : ConfOp} (hinv : s.Inv kind)
    (hstep : s.step kind op = some t) : Mirrors kind s op t ↔ RemovesWhole s op := by
  constructor
  · intro hmirrors
    cases Conference.step_inv hstep with
    | @remove_failed port status hlive hport hstatus =>
      have hslots := hinv.registered hlive
      rw [hport] at hslots
      have hin : port ∈ s.pj.slots := by rw [hslots]; exact List.mem_singleton_self port
      exact nomatch (hmirrors.conf_port hlive port).mpr hin
    | removed hlive hstatus => exact hstatus
    | not_added hlive hrefused => trivial
    | add_failed hlive hnone hpool hstatus => trivial
    | added hlive hnone hpool hstatus hfresh => trivial
    | dropped hlive => trivial
    | op_remove_port hqueued => trivial
    | frame hheld => trivial
  · intro hok
    have hafter := hinv.step hok hstep
    refine ⟨fun hlive port => ?_, ?_, hafter.once, fun pool hpool => ?_⟩
    · rw [hafter.registered hlive, Option.mem_toList]
    · rintro status err rfl herr
      rw [kind.remove_from_conference_eq, Member.remove_from_conference_eq hok] at herr
      cases herr
    · rcases hafter.accounted.released pool hpool with hkept | honce
      · rw [List.count_eq_zero.mpr (hafter.accounted.kept pool hkept).2]
        refine ⟨Nat.zero_le 1, fun hdropped => ?_⟩
        rw [hafter.dropped hdropped] at hkept
        cases hkept
      · exact ⟨honce.le, fun _ => honce⟩

/-- The invariant holds as long as no removal before the drop fails. -/
theorem Conference.inv_of_reach {kind : Kind} {s : Conference} (hreach : (conference kind).Reach RemovesWhole s) :
    s.Inv kind :=
  hreach.invariant (Conference.inv_start kind) fun _ _ _ _ hok hstep hinv => hinv.step hok hstep

/-- A drop whose removal does not fail leaves the bridge without the port. After one
    that fails the number is still in the bridge, with nobody to take it out. -/
theorem Conference.gone_iff {kind : Kind} {s t : Conference} {op : ConfOp} (hinv : s.Inv kind)
    (hgone : s.dropped = true → s.pj.slots = []) (hok : RemovesWhole s op) (hstep : s.step kind op = some t) :
    (t.dropped = true → t.pj.slots = []) ↔ DropsWhole s op := by
  cases Conference.step_inv hstep with
  | not_added hlive hrefused => exact iff_of_true hgone trivial
  | add_failed hlive hnone hpool hstatus =>
    exact iff_of_true (fun hdropped => absurd (hlive.symm.trans hdropped) Bool.false_ne_true) trivial
  | added hlive hnone hpool hstatus hfresh =>
    exact iff_of_true (fun hdropped => absurd (hlive.symm.trans hdropped) Bool.false_ne_true) trivial
  | remove_failed hlive hport hstatus => exact iff_of_true hgone trivial
  | removed hlive hstatus =>
    exact iff_of_true (fun hdropped => absurd (hlive.symm.trans hdropped) Bool.false_ne_true) trivial
  | @dropped status hlive =>
    obtain ⟨-, hslots⟩ := kind.drop_spec s.self s.pj status
    dsimp only [DropsWhole]
    rw [hslots]
    constructor
    · intro hempty hport
      by_contra hstatus
      rw [Member.leave_conference_failed s.self s.pj hstatus, hinv.registered hlive] at hempty
      exact hport (Option.toList_eq_nil_iff.mp (hempty rfl))
    · exact fun hstatus _ => Member.leave_conference_slots (hinv.registered hlive) hstatus
  | op_remove_port hqueued =>
    dsimp only
    rw [(op_remove_port_books kind s.pj _).slots]
    exact iff_of_true hgone trivial
  | frame hheld =>
    dsimp only
    rw [(kind.frame_books s.pj).slots]
    exact iff_of_true hgone trivial

/-- Where the removal in the drop does not fail either, the port is out of the
    bridge after it. -/
theorem Conference.gone_of_reach {kind : Kind} {s : Conference}
    (hreach : (conference kind).Reach (fun s op => RemovesWhole s op ∧ DropsWhole s op) s) :
    s.dropped = true → s.pj.slots = [] := by
  refine hreach.invariant (P := fun s => s.dropped = true → s.pj.slots = [])
    (fun hdropped => absurd hdropped Bool.false_ne_true) ?_
  intro s op t hprev hok hstep hgone
  have hinv := Conference.inv_of_reach (hprev.mono fun _ _ h => h.1)
  exact (Conference.gone_iff hinv hgone hok.1 hstep).mpr hok.2

section

variable {kind : Kind} {ops : List ConfOp} {t : Conference}

/-- The bookkeeping mirrors the bridge throughout a history exactly if no call of
    `remove_from_conference` finds the port registered and fails; the port is out of
    the bridge after its drop as well exactly if the removal in the drop does not
    fail either. This is for both kinds of port and for every history: calls of
    `add_to_conference` may fail at any point, and the bridge may carry out its
    removals whenever it likes. -/
theorem conference_mirrored_iff (hexec : (conference kind).exec (conference kind).start ops = some t) :
    ((conference kind).EachStep (Mirrors kind) (conference kind).start ops ↔
      (conference kind).Admits RemovesWhole (conference kind).start ops) ∧
    ((conference kind).EachStep (fun s op t => Mirrors kind s op t ∧ (t.dropped = true → t.pj.slots = []))
        (conference kind).start ops ↔
      (conference kind).Admits (fun s op => RemovesWhole s op ∧ DropsWhole s op) (conference kind).start ops) := by
  constructor
  · apply Machine.Reach.start.eachStep_iff _ hexec
    intro s op t hreach hstep
    exact Conference.mirrors_iff (Conference.inv_of_reach hreach) hstep
  · apply Machine.Reach.start.eachStep_iff _ hexec
    intro s op t hreach hstep
    have hinv := Conference.inv_of_reach (hreach.mono fun _ _ h => h.1)
    rw [Conference.mirrors_iff hinv hstep]
    exact and_congr_right fun hok => Conference.gone_iff hinv (Conference.gone_of_reach hreach) hok hstep

end

/-- A port that is added, removed, added again and dropped, with no call that fails:
    both conditions are met. -/
theorem conference_mirrored_iff_rounds :
    let ops := [.add_to_conference { port_id := 3 }, .remove_from_conference 0, .add_to_conference { port_id := 4 },
      .drop 0]
    ((conference .CustomPort).EachStep (Mirrors .CustomPort) (conference .CustomPort).start ops ↔
      (conference .CustomPort).Admits RemovesWhole (conference .CustomPort).start ops) ∧
    ((conference .CustomPort).EachStep
        (fun s op t => Mirrors .CustomPort s op t ∧ (t.dropped = true → t.pj.slots = []))
        (conference .CustomPort).start ops ↔
      (conference .CustomPort).Admits (fun s op => RemovesWhole s op ∧ DropsWhole s op)
        (conference .CustomPort).start ops) :=
  conference_mirrored_iff rfl

/-- A removal fails: the port is registered, and the object has lost its number. -/
theorem not_conference_mirrored :
    ¬ ∀ (kind : Kind) (ops : List ConfOp) (t : Conference),
      (conference kind).exec (conference kind).start ops = some t →
      (conference kind).EachStep (Mirrors kind) (conference kind).start ops := by
  intro hclaim
  have hfails := hclaim .CustomPort [.add_to_conference { port_id := 3 }, .remove_from_conference 70004] _ rfl
  have hmirrors := ((hfails _ rfl).2 _ rfl).1
  exact nomatch (hmirrors.conf_port rfl 3).mpr (List.mem_singleton_self 3)

end pjsua_rust.media_port
