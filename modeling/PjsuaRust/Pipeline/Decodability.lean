import PjsuaRust.Pipeline.Order

open pjsua_rust.video pjsua_rust.video_passthrough transition feeds

namespace pjsua_rust.sending

/-- The sender that a pipeline implements: only the epochs and the flags of the
    codec say whether a keyframe has gone out, and they agree. -/
structure Sends (size : Nat) (s : Pipeline) (d : Sender Accepted) : Prop where
  rep : Represents size s d.feed
  need : d.need = s.shared.queue.need_keyframe
  offered : d.offered = s.pushed
  log : d.log = s.log
  epoch : s.module.vpt.source_epoch ≠ 0
  keyed : d.keyed = (s.module.vpt.keyed_epoch == s.module.vpt.source_epoch)
  sent : s.is_open = true → ∀ vc ∈ s.codec,
    vc.enc_epoch = s.module.vpt.source_epoch → vc.enc_sent_key = d.keyed

/-- A run of frames that are not empty and fit, without a clear. -/
def Ordinary (s : Pipeline) (op : PipelineOp) : Prop :=
  Fresh s op ∧
    match op with
    | .push_frame frame _ => frame ≠ [] ∧ frame.length ≤ s.shared.max_frame_size
    | .clear => False
    | _ => True

/-- Nothing is accepted, copied or sent right after an install. The codec of the
    call comes later. -/
theorem Installed.sends {config : PassthroughConfig} {module : Module}
    (hinstalled : Installed config module) :
    Sends config.max_frame_size (pipeline config module).start {} := by
  obtain ⟨p, out, k, p', hinstall, rfl⟩ := hinstalled.install
  obtain ⟨-, -, -, -, -, hsource, hkeyed⟩ := install_ok hinstall
  refine ⟨hinstalled.represents, rfl, rfl, rfl, ?_, ?_, fun hopen => by cases hopen⟩
  · rw [pipeline, hsource]
    decide
  · rw [pipeline, hsource, hkeyed]
    decide

section Steps

variable {size : Nat} {s t : Pipeline} {d : Sender Accepted} (hsends : Sends size s d)
include hsends

/-- The copy of the chain is the frame the bridge holds. -/
theorem Sends.copy : d.copy = s.held_frame := by
  rw [Sender.copy, Pipeline.held_frame, hsends.rep.held, hsends.rep.accepted]

/-- A call that leaves the history, the epochs and the codec's flags. The feed may
    move, as long as it is still what the pipeline represents. -/
theorem Sends.keep {d' : Sender Accepted} (hrep : Represents size t d'.feed)
    (hneed : d'.need = t.shared.queue.need_keyframe) (hoffered : d'.offered = t.pushed)
    (hlog : d'.log = t.log) (hkeyed : d'.keyed = d.keyed)
    (hvpt : t.module.vpt.source_epoch = s.module.vpt.source_epoch ∧
      t.module.vpt.keyed_epoch = s.module.vpt.keyed_epoch)
    (hsent : t.is_open = true → ∀ vc ∈ t.codec,
      vc.enc_epoch = s.module.vpt.source_epoch → vc.enc_sent_key = d.keyed) : Sends size t d' where
  rep := hrep
  need := hneed
  offered := hoffered
  log := hlog
  epoch := by
    rw [hvpt.1]
    exact hsends.epoch
  keyed := by rw [hvpt.1, hvpt.2, hkeyed, hsends.keyed]
  sent := by
    rw [hvpt.1, hkeyed]
    exact hsent

/-- A push of a frame that is neither empty nor too large is accepted, makes the
    queue wait for a keyframe, or is refused while it waits; each of them is a step
    of the chain that keeps its invariant. -/
theorem Sends.push (hinv : d.Inv) {frame : List UInt8} {keyframe : Bool}
    (hframe : frame ≠ [] ∧ frame.length ≤ s.shared.max_frame_size) :
    ∃ d', Sends size (s.push_frame frame keyframe) d' ∧ d'.Inv := by
  obtain ⟨f', hrep, -, hmove⟩ := hsends.rep.push hinv.feed frame keyframe
  have hpushed : (s.push_frame frame keyframe).pushed = s.pushed + 1 := rfl
  generalize ht : s.push_frame frame keyframe = t at hrep hmove hpushed ⊢
  have hkeep {d' : Sender Accepted} (hrep : Represents size t d'.feed)
      (hneed : d'.need = t.shared.queue.need_keyframe) (hoffered : d'.offered = d.offered + 1)
      (hlog : d'.log = t.log) (hkeyed : d'.keyed = d.keyed) : Sends size t d' := by
    refine hsends.keep hrep hneed ?_ hlog hkeyed ?_ ?_
    · rw [hoffered, hsends.offered, hpushed]
    · rw [← ht]
      exact ⟨rfl, rfl⟩
    · rw [← ht]
      exact hsends.sent
  cases hmove with
  | size hsize =>
    rcases hsize with hnil | hlarge
    · exact absurd hnil hframe.1
    · omega
  | waiting hneed hshared haccepted hlog =>
    refine ⟨d.refuse, hkeep hrep ?_ rfl ?_ rfl, hinv.refuse (hsends.need.trans hneed)⟩
    · rw [Sender.refuse, hshared, hsends.need]
    · rw [Sender.refuse, hlog, hsends.log]
  | flushed hfull hneed haccepted hlog =>
    refine ⟨d.flush, hkeep hrep hneed.symm rfl ?_ rfl, hinv.flush⟩
    rw [Sender.flush, hlog, hsends.copy, hsends.log]
  | room x hnumber hkey hwait hneed haccepted hframes hlog =>
    refine ⟨d.accept x, hkeep hrep hneed.symm rfl ?_ rfl, hinv.accept ?_ ?_⟩
    · rw [Sender.accept, hlog, hsends.log]
    · exact hnumber.trans hsends.offered.symm
    · intro h
      exact hkey.trans (hwait (hsends.need ▸ h))
  | overflow x front hnumber hkey hwait hfull hneed haccepted hle hfront hhead hlog =>
    refine ⟨d.acceptOver x front, hkeep hrep hneed.symm rfl ?_ rfl, hinv.acceptOver ?_ ?_ hle hfront ?_⟩
    · rw [Sender.acceptOver, hlog, hsends.copy, hsends.log]
    · exact hnumber.trans hsends.offered.symm
    · intro h
      exact hkey.trans (hwait (hsends.need ▸ h))
    · obtain ⟨y, hy, hykey⟩ := hhead
      refine ⟨y, ?_, hykey⟩
      rw [haccepted, ← hsends.rep.accepted] at hy
      exact hy

/-- The flag the codec acts on says whether a keyframe has gone out, and nothing was
    dropped since: its own flag in an epoch it knows, and `keyed_epoch` in one it
    does not. -/
theorem Sends.sent_key {vc : vpt_codec} (hvc : s.codec = some vc) (hopen : s.is_open = true) (hdr : au_hdr) :
    sent_key (encode_take vc hdr) s.module.vpt.source_epoch
      (s.module.vpt.keyed_epoch == s.module.vpt.source_epoch) = d.keyed := by
  unfold video_passthrough.sent_key
  split
  · exact hsends.keyed.symm
  · rename_i hepoch
    exact hsends.sent hopen vc hvc (not_not.mp hepoch)

/-- An encode of the held frame hands it over, drops it, or leaves it out while the
    codec waits; the chain follows in each case. The case where the codec has taken
    the frame before changes nothing. -/
theorem Sends.encode_begin (hinv : d.Inv) {force_keyframe : Bool} {packetize : Packetizer}
    {out_size : Nat} {output : Output} (hopen : s.is_open = true)
    (hfresh : ∀ h ∈ s.held, s.accepted.length ≤ h + 2 ^ 31)
    (hstep : s.step (.encode_begin force_keyframe packetize out_size output) = some t) :
    ∃ d', Sends size t d' ∧ d'.Inv := by
  obtain ⟨f', hrep, -, hmove, haccepted, hpushed, hopen'⟩ := hsends.rep.encode_begin hinv.feed hfresh hstep
  cases hmove with
  | refused hshared hmodule hcodec htaken hlog =>
    refine ⟨d, hsends.keep hrep ?_ ?_ ?_ rfl ?_ ?_, hinv⟩
    · rw [hshared, hsends.need]
    · rw [hpushed, hsends.offered]
    · rw [hlog, hsends.log]
    · rw [hmodule]
      exact ⟨rfl, rfl⟩
    · rw [hcodec]
      exact fun _ => hsends.sent hopen
  | taken vc hvc hdr h a e hheld ha hnew hkey hsent hqueue hvpt hcodec htaken hlog =>
    have hneed : t.shared.queue.need_keyframe = s.shared.queue.need_keyframe := by
      rcases hqueue with heq | ⟨rest, -, heq⟩ <;> rw [heq]
    have hsource : t.module.vpt.source_epoch = s.module.vpt.source_epoch := by
      obtain ⟨epoch, heq⟩ := hsent.keeps.vpt
      rw [hvpt, heq]
    -- The new flags agree with the new epochs.
    have hmake {d' : Sender Accepted} (hfeed : d'.feed = d.feed.take h a) (hneed' : d'.need = d.need)
        (hoffered : d'.offered = d.offered) (hlog' : d'.log = sent_entry e.fate a ++ d.log)
        (hflag : e.vc.enc_sent_key = d'.keyed)
        (hkeyed : d'.keyed = (e.vpt.keyed_epoch == s.module.vpt.source_epoch)) :
        Sends size t d' := by
      refine ⟨hfeed ▸ hrep, ?_, ?_, ?_, ?_, ?_, ?_⟩
      · rw [hneed', hneed, hsends.need]
      · rw [hoffered, hpushed, hsends.offered]
      · rw [hlog', hlog, hsends.log]
      · rw [hsource]
        exact hsends.epoch
      · rw [hkeyed, hvpt, ← hsource, hvpt]
      · intro _ vc' hvc' _
        rw [hcodec] at hvc'
        cases hvc'
        exact hflag
    have hsource_epoch := hsends.sent_key hvc hopen hdr
    rcases hsent.cases with ⟨hfate, hflag, hplain, hnone, hsame⟩ | ⟨hfate, hor, hflag, hepoch⟩ |
      ⟨hfate, hor, hflag, hepoch⟩
    · have hkeyed : d.keyed = false := hsource_epoch ▸ hflag
      refine ⟨d.skip h a, hmake rfl rfl rfl ?_ ?_ ?_, hinv.skip hheld ha hnew hkeyed⟩
      · rw [hfate]
        rfl
      · rw [hnone]
        exact hkeyed.symm
      · rw [hsame]
        exact hsends.keyed
    · rw [hsource_epoch, hkey] at hor
      refine ⟨d.hand h a, hmake rfl rfl rfl ?_ hflag ?_, hinv.hand hheld ha hnew hor⟩
      · rw [hfate]
        rfl
      · rw [hepoch]
        split
        · exact (beq_self_eq_true _).symm
        · rename_i hplain
          rw [← hsends.keyed]
          exact (hor.resolve_right (by rwa [hkey] at hplain)).symm
    · refine ⟨d.lose.skip h a, hmake rfl rfl rfl ?_ hflag ?_, hinv.lose.skip hheld ha hnew rfl⟩
      · rw [hfate]
        rfl
      · rw [hepoch]
        exact (beq_eq_false_iff_ne.mpr (Ne.symm hsends.epoch)).symm

/-- A poll copies the front of the queue, or nothing. Codec and epochs stay as they
    are, so it does not matter how often the bridge polls. -/
theorem Sends.poll (hinv : d.Inv) {buf : pjmedia_frame} (hexact : buf.Exact s.module.vpt)
    (hstep : s.step (.poll buf) = some t) : Sends size t d.peek := by
  obtain ⟨hrep, hshared, hmodule, hcodec, hopen, -, hlog, hpushed⟩ :=
    hsends.rep.poll hinv.feed hexact hstep
  refine hsends.keep hrep ?_ ?_ ?_ rfl ?_ ?_
  · rw [hshared]
    exact hsends.need
  · rw [hpushed]
    exact hsends.offered
  · rw [hlog]
    exact hsends.log
  · rw [hmodule]
    exact ⟨rfl, rfl⟩
  · rw [hcodec, hopen]
    exact hsends.sent

/-- What is sent does not depend on the configuration: a reconfiguration is no step
    of the chain. -/
theorem Sends.reconfigure {config : PassthroughConfig} {out : ReconfigureOutcome}
    (hstep : s.step (.reconfigure config out) = some t) : Sends size t d := by
  obtain ⟨hrep, hqueue⟩ := hsends.rep.reconfigure hstep
  obtain ⟨-, -, -, cfg, hvpt⟩ := VideoPassthrough.reconfigure_sizes s.shared s.module config out
  cases Pipeline.step_inv hstep with
  | reconfigure hreconfigure =>
    simp only [hreconfigure] at hvpt
    refine hsends.keep hrep ?_ hsends.offered hsends.log rfl ?_ hsends.sent
    · rw [hqueue]
      exact hsends.need
    · rcases hvpt with heq | heq <;> rw [heq] <;> exact ⟨rfl, rfl⟩

/-- A codec that is opened goes by the epochs it finds: what the one before it sent
    or dropped counts for it too. -/
theorem Sends.open {param : pjmedia_vid_codec_param} {out : OpenOutcome}
    (hstep : s.step (.open param out) = some t) : Sends size t d.restart := by
  have hrep := hsends.rep.open hstep
  cases Pipeline.step_inv hstep with
  | @«open» _ _ vc _ _ _ _ _ hopened =>
    rcases vc_open_cases s.module.vpt vc param out with
      ⟨-, vc', heq, -, -, -, -, -, -, -, -, hepoch⟩ | ⟨-, status, hstatus, heq⟩
    · cases hopened.symm.trans heq
      refine hsends.keep hrep hsends.need hsends.offered hsends.log rfl ⟨rfl, rfl⟩ fun _ vc'' hvc'' hsame => ?_
      cases hvc''
      exact absurd (hsame.symm.trans hepoch) hsends.epoch
    · cases hopened.symm.trans heq
      refine hsends.keep hrep hsends.need hsends.offered hsends.log rfl ⟨rfl, rfl⟩ fun hsuccess => ?_
      exact absurd (by simpa using hsuccess) hstatus

/-- A change of the bit rates is no step of the chain. -/
theorem Sends.modify {avg_bps max_bps : UInt32}
    (hstep : s.step (.modify avg_bps max_bps) = some t) : Sends size t d := by
  have hrep := hsends.rep.modify hstep
  cases Pipeline.step_inv hstep with
  | modify hcodec hopen =>
    refine hsends.keep hrep hsends.need hsends.offered hsends.log rfl ⟨rfl, rfl⟩ fun _ vc' hvc' => ?_
    have hsent := hsends.sent hopen _ hcodec
    cases hvc'
    unfold vc_modify
    split <;> exact hsent

/-- A further packet is no step of the chain, unless the rest of the access unit is
    dropped: then the chain loses what it took last. -/
theorem Sends.encode_more (hinv : d.Inv) {packetize : Packetizer} {out_size : Nat} {output : Output}
    (hstep : s.step (.encode_more packetize out_size output) = some t) :
    ∃ d', Sends size t d' ∧ d'.Inv := by
  obtain ⟨hrep, -⟩ := hsends.rep.encode_more hstep
  cases Pipeline.step_inv hstep with
  | @encode_more _ _ _ vc hcodec hopen =>
    obtain ⟨hkeeps, hepoch, hcases⟩ := vc_encode_more_cases vc s.module.vpt packetize out_size output
    have hsent := hsends.sent hopen vc hcodec
    unfold Pipeline.encode_more at hrep ⊢
    generalize vc_encode_more vc s.module.vpt packetize out_size output = e at hrep hkeeps hepoch hcases ⊢
    dsimp only at hrep ⊢
    have hsame (hfate : e.fate ≠ .dropped) (hvpt : e.vpt = s.module.vpt)
        (hflag : e.vc.enc_sent_key = vc.enc_sent_key) : Sends size { s with
          module := { s.module with vpt := e.vpt }
          codec := some e.vc
          log := if e.fate = .dropped then .dropped :: s.log else s.log } d := by
      refine hsends.keep hrep hsends.need hsends.offered ?_ rfl ?_ ?_
      · rw [if_neg hfate]
        exact hsends.log
      · rw [hvpt]
        exact ⟨rfl, rfl⟩
      · intro _ vc' hvc' hsource
        cases hvc'
        exact hflag.trans (hsent (hepoch.symm.trans hsource))
    rcases hcases with ⟨hfate, -, hvc, hvpt⟩ | ⟨hfate, hflag, hvpt⟩ | ⟨hfate, hflag, hvpt⟩
    · exact ⟨d, hsame (by rw [hfate]; decide) hvpt (by rw [hvc]), hinv⟩
    · exact ⟨d, hsame (by rw [hfate]; decide) hvpt hflag, hinv⟩
    · refine ⟨d.lose, ⟨hrep, hsends.need, hsends.offered, ?_, ?_, ?_, ?_⟩, hinv.lose⟩
      · rw [if_pos hfate, Sender.lose, hsends.log]
      · rw [hvpt]
        exact hsends.epoch
      · rw [hvpt]
        exact (beq_eq_false_iff_ne.mpr (Ne.symm hsends.epoch)).symm
      · intro _ vc' hvc' _
        cases hvc'
        exact hflag

/-- Every ordinary step is one of the chain, or several: one case for each operation
    of the pipeline. -/
theorem Sends.step (hinv : d.Inv) {op : PipelineOp} (hordinary : Ordinary s op)
    (hstep : s.step op = some t) : ∃ d', Sends size t d' ∧ d'.Inv := by
  obtain ⟨hfresh, hop⟩ := hordinary
  cases op with
  | push_frame frame keyframe =>
    cases hstep
    exact hsends.push hinv hop
  | clear => exact hop.elim
  | reconfigure config out => exact ⟨d, hsends.reconfigure hstep, hinv⟩
  | poll buf => exact ⟨d.peek, hsends.poll hinv hfresh hstep, hinv.peek⟩
  | alloc =>
    cases Pipeline.step_inv hstep with
    | alloc hclosed =>
      have hrep : Represents size { s with codec := some vc_alloc_codec } d.feed :=
        hsends.rep.keep_queue (.refl _) ⟨rfl, rfl⟩ rfl rfl rfl (fun h => absurd h hclosed) rfl
      exact ⟨d, hsends.keep hrep hsends.need hsends.offered hsends.log rfl ⟨rfl, rfl⟩
        (fun h => absurd h hclosed), hinv⟩
  | «open» param out => exact ⟨d.restart, hsends.open hstep, hinv.restart⟩
  | modify avg_bps max_bps => exact ⟨d, hsends.modify hstep, hinv⟩
  | close =>
    cases hstep
    have hrep : Represents size { s with is_open := false } d.feed :=
      hsends.rep.keep_queue (.refl _) ⟨rfl, rfl⟩ rfl rfl rfl (fun h => by cases h) rfl
    exact ⟨d, hsends.keep hrep hsends.need hsends.offered hsends.log rfl ⟨rfl, rfl⟩ (fun h => by cases h), hinv⟩
  | encode_begin force_keyframe packetize out_size output =>
    obtain ⟨-, -, hopen, -⟩ := Pipeline.encode_begin_inv hstep
    exact hsends.encode_begin hinv hopen hfresh hstep
  | encode_more packetize out_size output => exact hsends.encode_more hinv hstep

end Steps

/-- In every run of one sending call without a clear, what is handed to the
    packetizer are frames as they were pushed, and what is not a keyframe is handed
    over only after the frame pushed just before it, and after a keyframe, with
    nothing dropped since. After an overflow, no other frame than the one the bridge
    held is handed over before the next keyframe. Frames are assumed to be neither
    empty nor over `max_frame_size`; overflows, stale copies, failed opens, drops
    and reconfigurations may come at any point. -/
theorem sent_decodable {config : PassthroughConfig} {module : Module}
    (hinstalled : Installed config module) {s : Pipeline}
    (hreach : (pipeline config module).Reach Ordinary s) :
    (∀ x, .handed x ∈ s.log → x ∈ s.accepted) ∧ Decodable s.log := by
  obtain ⟨d, hsends, hinv⟩ : ∃ d, Sends config.max_frame_size s d ∧ d.Inv := by
    refine hreach.invariant (P := fun s => ∃ d, Sends config.max_frame_size s d ∧ d.Inv)
      ⟨{}, hinstalled.sends, .empty⟩ ?_
    rintro s op t - hordinary hstep ⟨d, hsends, hinv⟩
    exact hsends.step hinv hordinary hstep
  rw [← hsends.log, ← hsends.rep.accepted]
  exact ⟨hinv.handed, hinv.decodable⟩

/-- Two frames are pushed, polled and encoded one after the other. -/
def two_frames : List PipelineOp :=
  [.alloc, .open sendrecv_param mode_1, .push_frame [0] true, .poll (.zero 17), .encode_begin false whole 1400 {},
    .push_frame [1] false, .poll (.zero 17)]

/-- An overflow comes between the poll and the encode of the second frame. -/
def overflow_between : List PipelineOp :=
  two_frames ++ [.push_frame [2] false, .encode_begin false whole 1400 {}]

/-- A passthrough that queues one frame of one byte. -/
def single_config : PassthroughConfig := { small_config with max_queue := 1 }

theorem single_installed : Installed single_config small_module :=
  ⟨⟨installs.start, {}, 0, _, rfl, rfl⟩, by decide⟩

theorem overflow_between_admitted :
    (pipeline single_config small_module).Admits Ordinary (pipeline single_config small_module).start
      overflow_between := by
  refine .cons rfl ⟨trivial, trivial⟩ <| .cons rfl ⟨trivial, trivial⟩ <|
    .cons rfl ⟨trivial, by decide, by decide⟩ <| .cons rfl ⟨⟨rfl, rfl⟩, trivial⟩ <| .cons rfl ⟨?_, trivial⟩ <|
    .cons rfl ⟨trivial, by decide, by decide⟩ <| .cons rfl ⟨⟨rfl, rfl⟩, trivial⟩ <|
    .cons rfl ⟨trivial, by decide, by decide⟩ <| .cons rfl ⟨?_, trivial⟩ trivial
  all_goals
    intro h hh
    cases hh
    decide

/-- Both frames are handed over, the second after the first, although the queue
    overflowed in between: the bridge held the second one already. -/
theorem sent_decodable_overflow :
    ∃ s, (pipeline single_config small_module).exec (pipeline single_config small_module).start
        overflow_between = some s ∧
      (∀ x, .handed x ∈ s.log → x ∈ s.accepted) ∧ Decodable s.log :=
  ⟨_, rfl, sent_decodable single_installed (Machine.Reach.exec .start overflow_between_admitted rfl)⟩

/-- Nothing is handed over after an overflow until a keyframe is. -/
def SilentAfterOverflow (log : List (Sent Accepted)) : Prop :=
  Logged (fun e past => ∀ x, e = .handed x → Coded.key x = false →
    ∀ held, ¬ Since (· = .overflow held) IsHandedKey past) log

/-- The frame the bridge holds when the queue overflows may still go out. So it is
    not only keyframes that come next after an overflow. -/
theorem not_silentAfterOverflow :
    ¬ ∀ (config : PassthroughConfig) (module : Module) (s : Pipeline), Installed config module →
      (pipeline config module).Reach Ordinary s → Decodable s.log ∧ SilentAfterOverflow s.log := by
  intro hclaim
  have hreach := fun s => Machine.Reach.exec (t := s) .start overflow_between_admitted
  have hsilent := (hclaim single_config small_module _ single_installed (hreach _ rfl)).2
  refine hsilent (.handed { number := 1, frame := { id := 2, data := [1], keyframe := false } }) _
    (List.suffix_refl _) _ rfl rfl _ (since_cons.mpr (.inl rfl))

end pjsua_rust.sending
