import PjsuaRust.Feed.Basic
import PjsuaRust.Transition.Log

open transition

namespace feeds

/-- What becomes of the elements of a feed whose elements refer to the one
    before them, unless they are keys: one is handed over, one is dropped when
    it would have been, or the queue overflows while the reader's copy is of
    `held`. -/
inductive Sent (α : Type) where
  | handed (x : α)
  | dropped
  | overflow (held : Option α)
deriving DecidableEq, Repr

/-- Elements are numbered as they are offered; those refused have numbers too. -/
class Coded (α : Type) where
  number : α → Nat
  key : α → Bool

/-- A feed of coded elements, with its history, newest first. `need` says that
    nothing but a key is accepted, and `keyed` that what is not a key may be
    handed over. -/
structure Sender (α : Type) where
  feed : Feed α := {}
  need : Bool := false
  keyed : Bool := false
  offered : Nat := 0
  log : List (Sent α) := []

variable {α : Type} [Coded α]

open Coded

def IsDropped (e : Sent α) : Prop := e = .dropped

def IsHandedKey (e : Sent α) : Prop := ∃ x, e = .handed x ∧ key x = true

/-- What is not a key is handed over only after the element offered just before
    it was, and after a key, with nothing dropped since; and after an overflow,
    before a key is handed over again, only if the copy was of it already. -/
def Decodable (log : List (Sent α)) : Prop :=
  Logged (fun e past => ∀ x, e = .handed x → key x = false →
    (∃ y, number y + 1 = number x ∧ Since (· = .handed y) IsDropped past) ∧
      Since IsHandedKey IsDropped past ∧
      ∀ held, Since (· = .overflow held) IsHandedKey past → held = some x) log

namespace Sender

variable {d : Sender α}

/-- The element the copy is of. -/
def copy (d : Sender α) : Option α := d.feed.held.bind fun h => d.feed.accepted[h]?

/-- An element that is refused because a key is needed. -/
def refuse (d : Sender α) : Sender α :=
  { d with offered := d.offered + 1 }

/-- An element that is refused and empties the queue. -/
def flush (d : Sender α) : Sender α :=
  { d with
    feed := d.feed.drop d.feed.accepted.length
    need := true
    offered := d.offered + 1
    log := .overflow d.copy :: d.log }

/-- An element is accepted while there is room. -/
def accept (d : Sender α) (x : α) : Sender α :=
  { d with
    feed := d.feed.accept x d.feed.front
    need := false
    offered := d.offered + 1 }

/-- An element is accepted, and only what stands from `front` on is kept. -/
def acceptOver (d : Sender α) (x : α) (front : Nat) : Sender α :=
  { d with
    feed := d.feed.accept x front
    need := false
    offered := d.offered + 1
    log := .overflow d.copy :: d.log }

def peek (d : Sender α) : Sender α :=
  { d with feed := d.feed.peek }

/-- The copy is taken, and nothing comes of it. -/
def skip (d : Sender α) (h : Nat) (x : α) : Sender α :=
  { d with feed := d.feed.take h x }

/-- The copy is taken and handed over. -/
def hand (d : Sender α) (h : Nat) (x : α) : Sender α :=
  { d with
    feed := d.feed.take h x
    keyed := true
    log := .handed x :: d.log }

/-- What was taken last is dropped. -/
def lose (d : Sender α) : Sender α :=
  { d with
    keyed := false
    log := .dropped :: d.log }

def restart (d : Sender α) : Sender α :=
  { d with feed := d.feed.restart }

/-- The element at a place is a key. -/
def KeyAt (d : Sender α) (i : Nat) : Prop := ∃ x, d.feed.accepted[i]? = some x ∧ key x = true

/-- The front is a key, or only a key can come to stand there. -/
def Stops (d : Sender α) : Prop :=
  d.KeyAt d.feed.front ∨ d.feed.front = d.feed.accepted.length ∧ d.need = true

/-- The place follows the one taken last. -/
def Follows (d : Sender α) (i : Nat) : Prop := ∃ m, d.feed.last = some m ∧ m + 1 = i

/-- Nothing but `held` and keys is handed over until a key is. -/
structure Blocked (d : Sender α) (held : Option α) : Prop where
  copy : ∀ x, d.copy = some x → key x = true ∨ held = some x
  stops : d.Stops

/-- What holds throughout. -/
structure Inv (d : Sender α) : Prop where
  feed : d.feed.Inv
  number : ∀ i x, d.feed.accepted[i]? = some x → key x = false → (i = 0 ∧ Coded.number x = 0) ∨
    ∃ j y, i = j + 1 ∧ d.feed.accepted[j]? = some y ∧ Coded.number y + 1 = Coded.number x
  offered : d.need = false → (d.feed.accepted = [] ∧ d.offered = 0) ∨
    ∃ y, d.feed.accepted.getLast? = some y ∧ Coded.number y + 1 = d.offered
  front : d.feed.front = 0 ∨ d.Stops ∨ d.Follows d.feed.front
  held : ∀ h ∈ d.feed.held, h = 0 ∨ d.KeyAt h ∨ d.Follows h ∨ d.feed.last = some h
  keyed : d.keyed = true → Since IsHandedKey IsDropped d.log ∧ ∃ m x, d.feed.last = some m ∧
    d.feed.accepted[m]? = some x ∧ Since (· = .handed x) IsDropped d.log
  blocked : ∀ held, Since (· = .overflow held) IsHandedKey d.log → d.keyed = false ∨ d.Blocked held
  handed : ∀ x, .handed x ∈ d.log → x ∈ d.feed.accepted
  decodable : Decodable d.log

/-- Before anything was offered. -/
theorem Inv.empty : Inv ({} : Sender α) where
  feed := .empty
  number := by simp
  offered _ := .inl ⟨rfl, rfl⟩
  front := .inl rfl
  held := by simp
  keyed := by simp
  blocked := by simp
  handed := by simp
  decodable := logged_nil

theorem decodable_cons {e : Sent α} {log : List (Sent α)} (he : ∀ x, e ≠ .handed x)
    (hlog : Decodable log) : Decodable (e :: log) :=
  logged_cons.mpr ⟨fun x heq => absurd heq (he x), hlog⟩

/-- An element may be refused while only a key is accepted: what is accepted next
    does not refer to it. -/
theorem Inv.refuse (hinv : d.Inv) (hneed : d.need = true) : d.refuse.Inv where
  feed := hinv.feed
  number := hinv.number
  offered hneed' := by
    rw [Sender.refuse, hneed] at hneed'
    cases hneed'
  front := hinv.front
  held := hinv.held
  keyed := hinv.keyed
  blocked held hsince := (hinv.blocked held hsince).imp_right fun h => ⟨h.copy, h.stops⟩
  handed := hinv.handed
  decodable := hinv.decodable

/-- After a flush a key comes next, whatever was queued; only the copy is left of
    it. -/
theorem Inv.flush (hinv : d.Inv) : d.flush.Inv where
  feed := hinv.feed.drop hinv.feed.front (Nat.le_refl _)
  number := hinv.number
  offered := by simp [Sender.flush]
  front := .inr (.inl (.inr ⟨rfl, rfl⟩))
  held := hinv.held
  keyed hkeyed := by
    obtain ⟨hkey, m, x, hlast, hx, hsince⟩ := hinv.keyed hkeyed
    refine ⟨since_cons.mpr (.inr ⟨?_, hkey⟩), m, x, hlast, hx, since_cons.mpr (.inr ⟨?_, hsince⟩)⟩ <;>
      simp [IsDropped]
  blocked held hsince := by
    have hstops : d.flush.Stops := .inr ⟨rfl, rfl⟩
    rcases since_cons.mp hsince with heq | ⟨-, hsince⟩
    · cases heq
      exact .inr ⟨fun x hx => .inr hx, hstops⟩
    · exact (hinv.blocked held hsince).imp_right fun h => ⟨h.copy, hstops⟩
  handed x hx := hinv.handed x (by simpa [Sender.flush] using hx)
  decodable := decodable_cons (by simp) hinv.decodable

/-- What holds of the elements still holds once one more is accepted. That one is
    numbered as it was offered, and is a key where one is needed. -/
theorem Inv.number_accept (hinv : d.Inv) {x : α} (hx : Coded.number x = d.offered)
    (hneed : d.need = true → key x = true) :
    ∀ i z, (d.feed.accepted ++ [x])[i]? = some z → key z = false → (i = 0 ∧ Coded.number z = 0) ∨
      ∃ j y, i = j + 1 ∧ (d.feed.accepted ++ [x])[j]? = some y ∧ Coded.number y + 1 = Coded.number z := by
  intro i z hz hplain
  rcases Nat.lt_trichotomy i d.feed.accepted.length with hlt | heq | hgt
  · rw [List.getElem?_append_left hlt] at hz
    refine (hinv.number i z hz hplain).imp_right ?_
    rintro ⟨j, y, rfl, hy, hnumber⟩
    exact ⟨j, y, rfl, by rw [List.getElem?_append_left (by omega), hy], hnumber⟩
  · rw [heq, List.getElem?_concat_length] at hz
    cases hz
    have hneed' : d.need = false := by
      cases h : d.need with
      | false => rfl
      | true => rw [hneed h] at hplain; cases hplain
    rcases hinv.offered hneed' with ⟨hnil, hzero⟩ | ⟨y, hy, hnumber⟩
    · exact .inl ⟨by rw [heq, hnil]; rfl, by rw [hx, hzero]⟩
    · obtain ⟨ys, hys⟩ := List.getLast?_eq_some_iff.mp hy
      refine .inr ⟨ys.length, y, ?_, ?_, by rw [hx, hnumber]⟩
      · rw [heq, hys, List.length_append, List.length_singleton]
      · rw [hys, List.append_assoc, List.getElem?_append_right (Nat.le_refl _)]
        simp
  · rw [List.getElem?_eq_none (by simp; omega)] at hz
    cases hz

omit [Coded α] in
theorem getElem?_accept {l : List α} {i : Nat} {y : α} (hy : l[i]? = some y) (x : α) :
    (l ++ [x])[i]? = some y := by
  obtain ⟨hlt, -⟩ := List.getElem?_eq_some_iff.mp hy
  rw [List.getElem?_append_left hlt, hy]

theorem offered_accept {x : α} (hx : Coded.number x = d.offered) :
    ∃ y, (d.feed.accepted ++ [x]).getLast? = some y ∧ Coded.number y + 1 = d.offered + 1 :=
  ⟨x, List.getLast?_concat, by rw [hx]⟩

/-- The copy is of an element accepted before, so accepting one more changes
    nothing about it. -/
theorem Inv.held_accept (hinv : d.Inv) (x : α) (front : Nat) : ∀ h ∈ d.feed.held,
    h = 0 ∨ KeyAt { d with feed := d.feed.accept x front } h ∨ d.Follows h ∨ d.feed.last = some h := by
  intro h hh
  refine (hinv.held h hh).imp_right (Or.imp_left ?_)
  rintro ⟨y, hy, hkey⟩
  exact ⟨y, getElem?_accept hy x, hkey⟩

theorem Inv.copy_accept (hinv : d.Inv) (x : α) (front : Nat) :
    copy { d with feed := d.feed.accept x front } = d.copy := by
  unfold copy
  cases hheld : d.feed.held with
  | none => simp [Feed.accept, hheld]
  | some h =>
    obtain ⟨hlt, -⟩ := hinv.feed.held h hheld
    simp [Feed.accept, hheld, List.getElem?_append_left hlt]

theorem Inv.keyed_accept (hinv : d.Inv) (x : α) (hkeyed : d.keyed = true) :
    Since IsHandedKey IsDropped d.log ∧ ∃ m y, d.feed.last = some m ∧
      (d.feed.accepted ++ [x])[m]? = some y ∧ Since (· = .handed y) IsDropped d.log := by
  obtain ⟨hkey, m, y, hlast, hy, hsince⟩ := hinv.keyed hkeyed
  exact ⟨hkey, m, y, hlast, getElem?_accept hy x, hsince⟩

theorem Stops.accept (hstops : d.Stops) {x : α} (hneed : d.need = true → key x = true) :
    (d.accept x).KeyAt d.feed.front := by
  rcases hstops with ⟨y, hy, hkey⟩ | ⟨hfront, hn⟩
  · exact ⟨y, getElem?_accept hy x, hkey⟩
  · exact ⟨x, by rw [hfront]; exact List.getElem?_concat_length, hneed hn⟩

/-- An element accepted with room to spare refers to the one offered before it,
    which was accepted too, or it is a key. -/
theorem Inv.accept (hinv : d.Inv) {x : α} (hx : Coded.number x = d.offered)
    (hneed : d.need = true → key x = true) : (d.accept x).Inv where
  feed := hinv.feed.accept x (Nat.le_refl _) hinv.feed.front
  number := hinv.number_accept hx hneed
  offered _ := .inr (offered_accept hx)
  front := hinv.front.imp_right (Or.imp_left fun h => .inl (h.accept hneed))
  held := hinv.held_accept x d.feed.front
  keyed := hinv.keyed_accept x
  blocked held hsince := by
    refine (hinv.blocked held hsince).imp_right fun h => ⟨?_, .inl (h.stops.accept hneed)⟩
    intro y hy
    exact h.copy y (hinv.copy_accept x d.feed.front ▸ hy)
  handed y hy := List.mem_append_left _ (hinv.handed y hy)
  decodable := hinv.decodable

/-- Where the queue gives up its front for an element, what it keeps begins with a
    key. -/
theorem Inv.acceptOver (hinv : d.Inv) {x : α} (hx : Coded.number x = d.offered)
    (hneed : d.need = true → key x = true) {front : Nat} (hle : d.feed.front ≤ front)
    (hfront : front ≤ d.feed.accepted.length) (hkey : (d.acceptOver x front).KeyAt front) :
    (d.acceptOver x front).Inv where
  feed := hinv.feed.accept x hle hfront
  number := hinv.number_accept hx hneed
  offered _ := .inr (offered_accept hx)
  front := .inr (.inl (.inl hkey))
  held := hinv.held_accept x front
  keyed hkeyed := by
    obtain ⟨hkey, m, y, hlast, hy, hsince⟩ := hinv.keyed_accept x hkeyed
    refine ⟨since_cons.mpr (.inr ⟨?_, hkey⟩), m, y, hlast, hy, since_cons.mpr (.inr ⟨?_, hsince⟩)⟩ <;>
      simp [IsDropped]
  blocked held hsince := by
    have hcopy : (d.acceptOver x front).copy = d.copy := hinv.copy_accept x front
    rcases since_cons.mp hsince with heq | ⟨-, hsince⟩
    · cases heq
      exact .inr ⟨fun y hy => .inr (hcopy ▸ hy), .inl hkey⟩
    · refine (hinv.blocked held hsince).imp_right fun h => ⟨?_, .inl hkey⟩
      intro y hy
      exact h.copy y (hcopy ▸ hy)
  handed y hy := List.mem_append_left _ (hinv.handed y (by simpa [Sender.acceptOver] using hy))
  decodable := decodable_cons (by simp) hinv.decodable

theorem Inv.peek (hinv : d.Inv) : d.peek.Inv where
  feed := hinv.feed.peek
  number := hinv.number
  offered := hinv.offered
  front := hinv.front
  held h hh := by
    obtain ⟨rfl, hlt⟩ := Feed.peek_held hh
    rcases hinv.front with hzero | (hkey | ⟨hend, -⟩) | hfollows
    · exact .inl hzero
    · exact .inr (.inl hkey)
    · omega
    · exact .inr (.inr (.inl hfollows))
  keyed := hinv.keyed
  blocked held hsince := by
    refine (hinv.blocked held hsince).imp_right fun h => ⟨?_, h.stops⟩
    intro x hx
    obtain ⟨i, hi, hx⟩ := Option.bind_eq_some_iff.mp hx
    obtain ⟨rfl, hlt⟩ := Feed.peek_held hi
    rcases h.stops with ⟨y, hy, hkey⟩ | ⟨hend, -⟩
    · exact .inl (Option.some.inj (hy.symm.trans hx) ▸ hkey)
    · omega
  handed := hinv.handed
  decodable := hinv.decodable

/-- A new reader may take again what the old one took last. What was handed over
    stays in the log, and the chain goes on from there. -/
theorem Inv.restart (hinv : d.Inv) : d.restart.Inv where
  feed := hinv.feed.restart
  number := hinv.number
  offered := hinv.offered
  front := hinv.front
  held := hinv.held
  keyed := hinv.keyed
  blocked held hsince := (hinv.blocked held hsince).imp_right fun h => ⟨h.copy, h.stops⟩
  handed := hinv.handed
  decodable := hinv.decodable

/-- After a drop nothing but a key is handed over, so what follows the dropped
    element is not. -/
theorem Inv.lose (hinv : d.Inv) : d.lose.Inv where
  feed := hinv.feed
  number := hinv.number
  offered := hinv.offered
  front := hinv.front
  held := hinv.held
  keyed hkeyed := by cases hkeyed
  blocked _ _ := .inl rfl
  handed x hx := hinv.handed x (by simpa [Sender.lose] using hx)
  decodable := decodable_cons (by simp) hinv.decodable

section Take

variable {h : Nat} {x : α} (hinv : d.Inv) (hheld : d.feed.held = some h)
  (hx : d.feed.accepted[h]? = some x)
include hinv hheld

/-- Once the copy is taken, what is then at the front follows it, unless the
    queue had moved on before. -/
theorem Inv.front_take : (d.skip h x).feed.front = h + 1 ∨
    (d.skip h x).feed.front = d.feed.front ∧ h < d.feed.front ∧ (d.Stops ∨ h + 1 = d.feed.front) := by
  have hfront : (d.skip h x).feed.front = _ := hinv.feed.front_take hheld
  rw [hfront]
  split
  · exact .inl (by omega)
  · have hle := (hinv.feed.held h hheld).2
    refine .inr ⟨rfl, by omega, ?_⟩
    rcases hinv.front with hzero | hstops | ⟨m, hlast, hm⟩
    · omega
    · exact .inl hstops
    · have := (hinv.feed.last m hlast).2 h hheld
      exact .inr (by omega)

/-- What is at the front after a take follows it, is a key, or is the first of all. -/
theorem Inv.follows_take : (d.skip h x).feed.front = 0 ∨ (d.skip h x).Stops ∨
    (d.skip h x).Follows (d.skip h x).feed.front := by
  rcases hinv.front_take hheld (x := x) with hfront | ⟨hfront, -, hstops | hnext⟩
  · exact .inr (.inr ⟨h, rfl, hfront.symm⟩)
  · refine .inr (.inl ?_)
    unfold Stops
    rw [hfront]
    exact hstops
  · exact .inr (.inr ⟨h, rfl, by rw [hfront, hnext]⟩)

include hx in
/-- What is taken and dropped, or taken while nothing may be handed over. After it,
    as before, nothing may be handed over but a key. -/
theorem Inv.skip (hnew : d.feed.fresh = true ∨ d.feed.last ≠ some h) (hkeyed : d.keyed = false) :
    (d.skip h x).Inv where
  feed := hinv.feed.take hheld hx hnew
  number := hinv.number
  offered := hinv.offered
  front := hinv.follows_take hheld
  held h' hh' := by
    cases Option.mem_unique hheld hh'
    exact .inr (.inr (.inr rfl))
  keyed hkeyed' := by
    rw [Sender.skip, hkeyed] at hkeyed'
    cases hkeyed'
  blocked _ _ := .inl hkeyed
  handed := hinv.handed
  decodable := hinv.decodable

include hx in
/-- Where the copy may be handed over without being a key, the element offered
    just before it was handed over, with nothing dropped since. -/
theorem Inv.predecessor (hkeyed : d.keyed = true) (hplain : key x = false) :
    ∃ y, Coded.number y + 1 = Coded.number x ∧ Since (· = .handed y) IsDropped d.log := by
  obtain ⟨-, m, z, hlast, hz, hsince⟩ := hinv.keyed hkeyed
  have hle := (hinv.feed.last m hlast).2 h hheld
  have hagain (hm : m = h) : ∃ y, Coded.number y + 1 = Coded.number x ∧
      Since (· = .handed y) IsDropped d.log := by
    -- The copy was handed over before, and the element before it before that.
    subst hm
    cases hz.symm.trans hx
    obtain ⟨recent, e, past, hlog, rfl, hrecent⟩ := hsince
    obtain ⟨⟨y, hnumber, hbefore⟩, -⟩ :=
      hinv.decodable (.handed x) past (hlog ▸ List.suffix_append _ _) x rfl hplain
    refine ⟨y, hnumber, hlog ▸ Since.append (since_cons.mpr (.inr ⟨by simp [IsDropped], hbefore⟩)) hrecent⟩
  rcases hinv.held h hheld with hzero | ⟨z', hz', hkey⟩ | ⟨m', hlast', hnext⟩ | hsame
  · exact hagain (by omega)
  · cases hz'.symm.trans hx
    rw [hplain] at hkey
    cases hkey
  · cases hlast.symm.trans hlast'
    rcases hinv.number h x hx hplain with ⟨hzero, -⟩ | ⟨j, y, hj, hy, hnumber⟩
    · omega
    · have hjm : j = m := by omega
      subst hjm
      cases hz.symm.trans hy
      exact ⟨_, hnumber, hsince⟩
  · cases hlast.symm.trans hsame
    exact hagain rfl

include hx in
/-- What is handed over is a key, or refers to what was handed over last. This is
    where the history is shown to be decodable. -/
theorem Inv.hand (hnew : d.feed.fresh = true ∨ d.feed.last ≠ some h)
    (hsent : d.keyed = true ∨ key x = true) : (d.hand h x).Inv where
  feed := hinv.feed.take hheld hx hnew
  number := hinv.number
  offered := hinv.offered
  front := hinv.follows_take hheld
  held h' hh' := by
    cases Option.mem_unique hheld hh'
    exact .inr (.inr (.inr rfl))
  keyed _ := by
    refine ⟨since_cons.mpr ?_, h, x, rfl, hx, since_cons.mpr (.inl rfl)⟩
    rcases hsent with hkeyed | hkey
    · exact .inr ⟨by simp [IsDropped], (hinv.keyed hkeyed).1⟩
    · exact .inl ⟨x, rfl, hkey⟩
  blocked held hsince := by
    rcases since_cons.mp hsince with heq | ⟨hnokey, hsince⟩
    · cases heq
    · have hplain : key x = false := by
        cases hkey : key x with
        | false => rfl
        | true => exact absurd ⟨x, rfl, hkey⟩ hnokey
      have hkeyed := hsent.resolve_right (by simp [hplain])
      have hblocked := (hinv.blocked held hsince).resolve_left (by simp [hkeyed])
      refine .inr ⟨hblocked.copy, ?_⟩
      -- The front is a key or the end, so the copy is not of the front.
      have hfront : h < d.feed.front := by
        have hle := hinv.feed.held h hheld
        rcases hblocked.stops with ⟨y, hy, hkey⟩ | ⟨hend, -⟩
        · refine Nat.lt_of_le_of_ne hle.2 ?_
          rintro rfl
          cases hy.symm.trans hx
          rw [hplain] at hkey
          cases hkey
        · omega
      have hsame : (d.hand h x).feed.front = d.feed.front := Nat.max_eq_left hfront
      unfold Stops
      rw [hsame]
      exact hblocked.stops
  handed y hy := by
    rcases List.mem_cons.mp hy with heq | hy
    · cases heq
      exact List.mem_of_getElem? hx
    · exact hinv.handed y hy
  decodable := by
    refine logged_cons.mpr ⟨?_, hinv.decodable⟩
    intro y heq hplain
    cases heq
    have hkeyed := hsent.resolve_right (by simp [hplain])
    refine ⟨hinv.predecessor hheld hx hkeyed hplain, (hinv.keyed hkeyed).1, fun held hsince => ?_⟩
    have hblocked := (hinv.blocked held hsince).resolve_left (by simp [hkeyed])
    have hcopy : d.copy = some x := by
      rw [copy, hheld]
      exact hx
    exact (hblocked.copy x hcopy).resolve_left (by simp [hplain])

end Take

end Sender

end feeds
