import PjsuaRust.Passthrough.Factory

open pjsua_rust.video

namespace pjsua_rust.video_passthrough

/-- One poll of a capture stream: the module and the queue as they are then, and
    the frame the bridge wants filled. -/
structure Poll where
  vpt : vpt_state
  slot : Option Shared
  frame : pjmedia_frame

/-- Poll after poll: the status and the frame of each. -/
def poll_all (strm : vpt_stream) : List Poll → Except Fault (List (pj_status_t × pjmedia_frame))
  | [] => .ok []
  | p :: polls => do
    let (status, strm, frame) ← vd_get_frame p.vpt p.slot strm p.frame
    let frames ← poll_all strm polls
    return (status, frame) :: frames

/-- A poll reads the clock and moves it on, also where it leaves the frame alone.
    The status, the queue and the size of the frame do not matter. -/
theorem vd_get_frame_clock {vpt : vpt_state} {slot : Option Shared} {strm strm' : vpt_stream}
    {frame frame' : pjmedia_frame} {status : pj_status_t}
    (hpoll : vd_get_frame vpt slot strm frame = .ok (status, strm', frame')) :
    frame'.timestamp = strm.ts ∧ strm' = { strm with ts := strm.ts + strm.ts_inc.toUInt64 } := by
  unfold vd_get_frame at hpoll
  dsimp only at hpoll
  split at hpoll
  · cases hpoll
    exact ⟨rfl, rfl⟩
  · obtain ⟨buf, -, hrest⟩ := except_bind_ok hpoll
    obtain ⟨buf', -, hrest⟩ := except_bind_ok hrest
    cases hrest
    exact ⟨rfl, rfl⟩

/-- The stamps of the polls, in the 64 bits of the clock. They may wrap here; the
    clock may start anywhere, and tick by anything. -/
theorem poll_all_stamps {polls : List Poll} {strm : vpt_stream} {frames : List (pj_status_t × pjmedia_frame)}
    (hpolls : poll_all strm polls = .ok frames) :
    frames.map (·.2.timestamp.toNat) =
      (List.range polls.length).map fun i => (strm.ts.toNat + i * strm.ts_inc.toNat) % 2 ^ 64 := by
  induction polls generalizing strm frames with
  | nil =>
    cases hpolls
    rfl
  | cons p polls ih =>
    obtain ⟨⟨status, strm', frame⟩, hpoll, hrest⟩ := except_bind_ok hpolls
    obtain ⟨rest, hall, hcons⟩ := except_bind_ok hrest
    cases hcons
    obtain ⟨hstamp, rfl⟩ := vd_get_frame_clock hpoll
    have hword := strm.ts.toNat_lt
    rw [List.map_cons, ih hall, List.length_cons, List.range_succ_eq_map, List.map_cons, List.map_map]
    congr 1
    · rw [hstamp, Nat.zero_mul, Nat.add_zero, Nat.mod_eq_of_lt hword]
    · apply List.map_congr_left
      intro i _
      dsimp only
      rw [Function.comp_apply, UInt64.toNat_add, UInt32.toNat_toUInt64, Nat.mod_add_mod, Nat.succ_eq_add_one,
        Nat.add_mul, Nat.one_mul]
      congr 1
      omega

/-- Multiples of a period, each above the one before exactly if there is a period. -/
theorem pairwise_multiples (n period : Nat) :
    ((List.range n).map (· * period)).Pairwise (· < ·) ↔ n ≤ 1 ∨ 0 < period := by
  constructor
  · intro hpairwise
    by_contra hnot
    obtain ⟨m, rfl⟩ : ∃ m, n = m + 2 := ⟨n - 2, by omega⟩
    obtain rfl : period = 0 := by omega
    rw [List.range_succ_eq_map, List.map_cons, List.range_succ_eq_map, List.map_cons, List.map_cons,
      List.pairwise_cons] at hpairwise
    exact absurd (hpairwise.1 _ List.mem_cons_self) (by simp)
  · rintro (hfew | hperiod)
    · rcases (show n = 0 ∨ n = 1 by omega) with rfl | rfl
      · exact List.Pairwise.nil
      · exact List.pairwise_singleton _ _
    · rw [List.pairwise_map]
      exact List.pairwise_lt_range.imp fun hlt => Nat.mul_lt_mul_of_pos_right hlt hperiod

/-- A capture stream counts its polls, whatever they find: each frame is stamped
    with the polls before it, a period of 90 kHz each. Before the clock wraps, no
    frame is stamped like another exactly if the device is not polled faster than
    it ticks. The module, the queue and the bridge's frame may be others in every
    poll; of the polls it is only assumed that none leaves its buffer, and of the
    stream that it was made with the default parameters of a valid configuration. -/
theorem capture_clock {cfg : pjrs_vpt_config} (hvalid : cfg_valid cfg = true) {index : Nat}
    {param : pjmedia_vid_dev_param} (hparam : vd_factory_default_param (fill_dev_infos cfg) index = .ok param)
    {pool : Option Nat} {strm : DevStream} (hcreate : vd_factory_create_stream param pool = .ok strm)
    {polls : List Poll} {frames : List (pj_status_t × pjmedia_frame)} (hpolls : poll_all strm.clock polls = .ok frames) :
    frames.map (·.2.timestamp.toNat) =
        (List.range polls.length).map (fun i => i * (90000 / cfg.poll_fps.toNat) % 2 ^ 64) ∧
      ((polls.length - 1) * (90000 / cfg.poll_fps.toNat) < 2 ^ 64 →
        ((frames.map (·.2.timestamp)).Pairwise (· < ·) ↔ polls.length ≤ 1 ∨ cfg.poll_fps.toNat ≤ 90000)) := by
  cases pool with
  | none =>
    unfold vd_factory_create_stream at hcreate
    split at hcreate
    · cases hcreate
    · split at hcreate
      · cases hcreate
      · split at hcreate <;> cases hcreate
  | some pool =>
  rw [create_stream_of_default_param hvalid hparam] at hcreate
  cases hcreate
  have hinc : (UInt32.ofNat (90000 / cfg.poll_fps.toNat)).toNat = 90000 / cfg.poll_fps.toNat := by
    apply UInt32.toNat_ofNat_of_lt'
    exact Nat.lt_of_le_of_lt (Nat.div_le_self _ _) (by decide)
  have hstamps := poll_all_stamps hpolls
  dsimp only at hstamps
  rw [hinc] at hstamps
  simp only [show (0 : UInt64).toNat = 0 from rfl, Nat.zero_add] at hstamps
  refine ⟨hstamps, fun hwrap => ?_⟩
  have hsmall : (List.range polls.length).map (fun i => i * (90000 / cfg.poll_fps.toNat) % 2 ^ 64) =
      (List.range polls.length).map (· * (90000 / cfg.poll_fps.toNat)) := by
    apply List.map_congr_left
    intro i hi
    have hlt := List.mem_range.mp hi
    have hle : i * (90000 / cfg.poll_fps.toNat) ≤ (polls.length - 1) * (90000 / cfg.poll_fps.toNat) :=
      Nat.mul_le_mul_right _ (by omega)
    exact Nat.mod_eq_of_lt (Nat.lt_of_le_of_lt hle hwrap)
  have hfps : 0 < cfg.poll_fps.toNat := by
    simp only [cfg_valid, Bool.and_eq_true, bne_iff_ne] at hvalid
    exact Nat.pos_of_ne_zero fun hzero => hvalid.1.1.2 (UInt32.toNat_inj.mp hzero)
  have hticks : 0 < 90000 / cfg.poll_fps.toNat ↔ cfg.poll_fps.toNat ≤ 90000 := by
    rw [Nat.div_pos_iff]
    exact and_iff_right hfps
  have htoNat : (frames.map (·.2.timestamp)).Pairwise (· < ·) ↔
      (frames.map (·.2.timestamp.toNat)).Pairwise (· < ·) := by
    rw [List.pairwise_map, List.pairwise_map]
    exact Iff.rfl
  rw [htoNat, hstamps, hsmall, pairwise_multiples, hticks]

/-- A poll that finds nothing, with a frame that is too small for any access unit. -/
def short_poll : Poll where
  vpt := vpt_state.configured cfg_480p {}
  slot := none
  frame := .zero 16

/-- At 30 polls a second, three polls are a thirtieth of a second apart each. -/
theorem capture_clock_30 :
    ∃ param strm frames, vd_factory_default_param (fill_dev_infos cfg_480p) DEV_CAPTURE = .ok param ∧
      vd_factory_create_stream param (some 0) = .ok strm ∧
      poll_all strm.clock [short_poll, short_poll, short_poll] = .ok frames ∧
      frames.map Prod.fst = List.replicate 3 .PJMEDIA_EVID_BADFORMAT ∧
      frames.map (·.2.timestamp.toNat) = [0, 3000, 6000] := by
  obtain ⟨param, strm, frames, hparam, hcreate, hpolls, hstatus⟩ : ∃ param strm frames,
      vd_factory_default_param (fill_dev_infos cfg_480p) DEV_CAPTURE = .ok param ∧
      vd_factory_create_stream param (some 0) = .ok strm ∧
      poll_all strm.clock [short_poll, short_poll, short_poll] = .ok frames ∧
      frames.map Prod.fst = List.replicate 3 .PJMEDIA_EVID_BADFORMAT :=
    ⟨_, _, _, rfl, rfl, rfl, rfl⟩
  exact ⟨param, strm, frames, hparam, hcreate, hpolls, hstatus,
    (capture_clock (show cfg_valid cfg_480p = true by decide) hparam hcreate hpolls).1⟩

end pjsua_rust.video_passthrough
