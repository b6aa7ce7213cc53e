import PjsuaRust.Passthrough.Notifications

open pjsua_rust.video transition

namespace pjsua_rust.video_passthrough

theorem logged_callbacks_cons (c : Nat) (cb : Callback) (cbs : List Callback)
    (log : List Notice) :
    logged_callbacks c (cb :: cbs) log = logged_callbacks c cbs (.callback c cb :: log) := rfl

/-- Only an `encoder_open` of the codec itself changes whether one was notified. -/
theorem openNotified_callback {c c' : Nat} {cb : Callback} {log : List Notice} :
    OpenNotified c' (.callback c cb :: log) ↔
      (c = c' ∧ ∃ info, cb = .encoder_open info) ∨ OpenNotified c' log := by
  unfold OpenNotified
  rw [since_cons]
  cases cb <;> simp [IsOpen, IsReset]

/-- Callbacks for one codec notify its opens, and leave what the other codecs
    were notified of. -/
theorem openNotified_logged_callbacks {c c' : Nat} {cbs : List Callback} {log : List Notice} :
    OpenNotified c' (logged_callbacks c cbs log) ↔
      (c = c' ∧ ∃ info, .encoder_open info ∈ cbs) ∨ OpenNotified c' log := by
  induction cbs generalizing log with
  | nil => simp [logged_callbacks]
  | cons cb cbs ih =>
    rw [logged_callbacks_cons, ih, openNotified_callback]
    constructor
    · rintro (⟨hc, info, hmem⟩ | ⟨hc, info, rfl⟩ | hlog)
      · exact .inl ⟨hc, info, List.mem_cons_of_mem _ hmem⟩
      · exact .inl ⟨hc, info, List.mem_cons_self⟩
      · exact .inr hlog
    · rintro (⟨hc, info, hmem⟩ | hlog)
      · rcases List.mem_cons.mp hmem with heq | hmem
        · exact .inr (.inl ⟨hc, info, heq.symm⟩)
        · exact .inl ⟨hc, info, hmem⟩
      · exact .inr (.inr hlog)

/-- A codec that was made anew or closed was not notified of an open since; for the
    others nothing changes. -/
theorem openNotified_reset {c c' : Nat} {e : Notice} {log : List Notice}
    (he : e = .allocated c ∨ e = .closed c) :
    OpenNotified c' (e :: log) ↔ c ≠ c' ∧ OpenNotified c' log := by
  unfold OpenNotified
  rw [since_cons]
  rcases he with rfl | rfl <;> simp [IsOpen, IsReset]

/-- Callbacks keep a log paired where a close among them comes after an open. The
    other callbacks are neither. -/
theorem paired_logged_callbacks {c : Nat} {cbs : List Callback} {log : List Notice}
    (hpaired : Paired log) (hclose : .encoder_close ∈ cbs → OpenNotified c log) :
    Paired (logged_callbacks c cbs log) := by
  induction cbs generalizing log with
  | nil => exact hpaired
  | cons cb cbs ih =>
    rw [logged_callbacks_cons]
    refine ih (logged_cons.mpr ⟨?_, hpaired⟩) ?_
    · intro c' heq
      simp only [Notice.callback.injEq] at heq
      obtain ⟨rfl, rfl⟩ := heq
      exact hclose List.mem_cons_self
    · intro hmem
      exact openNotified_callback.mpr (.inr (hclose (List.mem_cons_of_mem _ hmem)))

/-- What is no callback keeps a log paired. -/
theorem paired_reset {c : Nat} {e : Notice} {log : List Notice}
    (he : e = .allocated c ∨ e = .closed c) (hpaired : Paired log) : Paired (e :: log) := by
  refine logged_cons.mpr ⟨?_, hpaired⟩
  rintro c' rfl
  simp at he

theorem not_close_mem_notify_open (vpt : vpt_state) (prm : pjmedia_vid_codec_param) :
    .encoder_close ∉ notify_open vpt prm := by
  unfold notify_open
  split <;> simp

theorem not_close_mem_request_keyframe (vpt : vpt_state) :
    .encoder_close ∉ request_keyframe vpt := by
  unfold request_keyframe
  split <;> simp

/-- The application is told of an open exactly if the stream is for sending. -/
theorem open_mem_notify_open {vpt : vpt_state} (hcb : vpt.cb = install_callbacks)
    (prm : pjmedia_vid_codec_param) :
    (∃ info, .encoder_open info ∈ notify_open vpt prm) ↔ prm.dir.encoding = true := by
  cases hdir : prm.dir.encoding <;> simp [notify_open, hcb, install_callbacks, hdir]

theorem not_open_mem_request_keyframe (vpt : vpt_state) (info : pjrs_vpt_stream_info) :
    .encoder_open info ∉ request_keyframe vpt := by
  unfold request_keyframe
  split <;> simp

/-- An open stores its parameters in any case, never calls `encoder_close`, and
    calls `encoder_open` exactly where it opens a sending stream. -/
theorem vc_open_callbacks {vpt : vpt_state} (hcb : vpt.cb = install_callbacks) (vc : vpt_codec)
    (a : OpenAttempt) :
    (vc_open vpt vc a.param a.out).2.1.prm = some a.param ∧
      .encoder_close ∉ (vc_open vpt vc a.param a.out).2.2 ∧
      ((∃ info, .encoder_open info ∈ (vc_open vpt vc a.param a.out).2.2) ↔ a.sends) := by
  rcases vc_open_cases vpt vc a.param a.out with ⟨hsup, vc', heq, hprm, -⟩ | ⟨hsup, status, -, heq⟩
  · rw [heq]
    refine ⟨hprm, ?_, ?_⟩
    · rw [List.mem_append, not_or]
      refine ⟨not_close_mem_notify_open vpt a.param, ?_⟩
      split
      · exact not_close_mem_request_keyframe vpt
      · simp
    · rw [OpenAttempt.sends, and_iff_left hsup]
      refine Iff.trans (exists_congr fun info => ?_) (open_mem_notify_open hcb a.param)
      rw [List.mem_append, or_iff_left]
      split
      · exact not_open_mem_request_keyframe vpt info
      · simp
  · rw [heq]
    simp [OpenAttempt.sends, hsup]

/-- A modification keeps the direction, and is notified as an open is. So an
    application sees an open more than once for one stream, but never a close. -/
theorem vc_modify_callbacks {vpt : vpt_state} (hcb : vpt.cb = install_callbacks) {vc : vpt_codec}
    {prm : pjmedia_vid_codec_param} (hprm : vc.prm = some prm) (avg_bps max_bps : UInt32) :
    (∃ prm', (vc_modify vpt vc avg_bps max_bps).1.prm = some prm' ∧ prm'.dir = prm.dir) ∧
      .encoder_close ∉ (vc_modify vpt vc avg_bps max_bps).2 ∧
      ((∃ info, .encoder_open info ∈ (vc_modify vpt vc avg_bps max_bps).2) ↔
        prm.dir.encoding = true) := by
  unfold vc_modify
  rw [hprm]
  exact ⟨⟨_, rfl, rfl⟩, not_close_mem_notify_open _ _, open_mem_notify_open hcb _⟩

/-- A close is notified where the stored parameters are those of a sender. -/
theorem vc_close_callbacks {vpt : vpt_state} (hcb : vpt.cb = install_callbacks) {vc : vpt_codec}
    {prm : pjmedia_vid_codec_param} (hprm : vc.prm = some prm) :
    .encoder_close ∈ vc_close vpt vc ↔ prm.dir.encoding = true := by
  cases hdir : prm.dir.encoding <;> simp [vc_close, hprm, hcb, install_callbacks, hdir]

/-- Everything one call on a codec can do. -/
inductive CodecStep (s : Codecs) : CodecOp → Codecs → Prop where
  | alloc {c : Nat} (hcodec : s.codec c = none) :
      CodecStep s (.alloc c) { s with
        codec := Function.update s.codec c (some vc_alloc_codec)
        log := .allocated c :: s.log }
  | open {c : Nat} {param : pjmedia_vid_codec_param} {out : OpenOutcome} {vc : vpt_codec}
      (hcodec : s.codec c = some vc) :
      CodecStep s (.open c param out) { s with
        codec := Function.update s.codec c (some (vc_open s.vpt vc param out).2.1)
        attempts := Function.update s.attempts c (⟨param, out⟩ :: s.attempts c)
        recent := Function.update s.recent c (⟨param, out⟩ :: s.recent c)
        log := logged_callbacks c (vc_open s.vpt vc param out).2.2 s.log }
  | modify {c : Nat} {avg_bps max_bps : UInt32} {vc : vpt_codec} {a : OpenAttempt} {rest : List OpenAttempt}
      (hcodec : s.codec c = some vc) (hrecent : s.recent c = a :: rest) (hsup : a.out.supported) :
      CodecStep s (.modify c avg_bps max_bps) { s with
        codec := Function.update s.codec c (some (vc_modify s.vpt vc avg_bps max_bps).1)
        log := logged_callbacks c (vc_modify s.vpt vc avg_bps max_bps).2 s.log }
  | close {c : Nat} {vc : vpt_codec} (hcodec : s.codec c = some vc) (hlt : s.closes c < (s.attempts c).length) :
      CodecStep s (.close c) { s with
        recent := Function.update s.recent c []
        closes := Function.update s.closes c (s.closes c + 1)
        log := .closed c :: logged_callbacks c (vc_close s.vpt vc) s.log }
  | reconfigure (cfg : pjrs_vpt_config) : CodecStep s (.reconfigure cfg) { s with vpt := replace_cfg s.vpt cfg }

/-- The inversion of `Codecs.step`: its branches, with the guard of each. -/
theorem Codecs.step_inv {s t : Codecs} {op : CodecOp} (hstep : s.step op = some t) : CodecStep s op t := by
  cases op with
  | alloc c =>
    simp only [Codecs.step] at hstep
    split at hstep
    · cases hstep
    · rename_i hcodec
      cases hstep
      exact .alloc hcodec
  | «open» c param out =>
    simp only [Codecs.step] at hstep
    split at hstep
    · cases hstep
    · rename_i hcodec
      cases hstep
      exact .open hcodec
  | modify c avg_bps max_bps =>
    simp only [Codecs.step] at hstep
    split at hstep
    · rename_i hcodec hrecent
      split at hstep
      · rename_i hsup
        cases hstep
        exact .modify hcodec hrecent hsup
      · cases hstep
    · cases hstep
  | close c =>
    simp only [Codecs.step] at hstep
    split at hstep
    · cases hstep
    · rename_i hcodec
      split at hstep
      · rename_i hlt
        cases hstep
        exact .close hcodec hlt
      · cases hstep
  | reconfigure cfg =>
    cases hstep
    exact .reconfigure cfg

/-- What the log and the calls made so far say of the codecs. -/
structure Codecs.Inv (s : Codecs) : Prop where
  cb : s.vpt.cb = install_callbacks
  untried : ∀ c, s.codec c = none → s.attempts c = []
  recent : ∀ c, s.recent c <+: s.attempts c
  stored : ∀ c, ∀ vc ∈ s.codec c, ∀ a ∈ (s.attempts c).head?,
    ∃ prm, vc.prm = some prm ∧ prm.dir = a.param.dir
  notified : ∀ c, OpenNotified c s.log ↔ ∃ a ∈ s.recent c, a.sends

/-- There are no codecs at first. -/
theorem Codecs.Inv.start (cfg : pjrs_vpt_config) : (codecs cfg).start.Inv where
  cb := rfl
  untried _ _ := rfl
  recent _ := List.prefix_refl _
  stored _ _ _ a ha := by simp [codecs] at ha
  notified _ := by simp [codecs, OpenNotified]

/-- A codec that a call was not for. -/
structure Codecs.SameAt (s t : Codecs) (c : Nat) : Prop where
  codec : t.codec c = s.codec c
  attempts : t.attempts c = s.attempts c
  recent : t.recent c = s.recent c
  log : OpenNotified c t.log ↔ OpenNotified c s.log

/-- A call is for one codec, and all is as it was with the others. For that one the
    invariant is checked anew: what was tried, what its last open stored, and what
    was notified since it was made or closed. -/
theorem Codecs.Inv.update {s t : Codecs} (hinv : s.Inv) {c : Nat} (hcb : t.vpt.cb = s.vpt.cb)
    (hothers : ∀ c' ≠ c, s.SameAt t c') (huntried : t.codec c = none → t.attempts c = [])
    (hrecent : t.recent c <+: t.attempts c)
    (hstored : ∀ vc ∈ t.codec c, ∀ a ∈ (t.attempts c).head?, ∃ prm, vc.prm = some prm ∧ prm.dir = a.param.dir)
    (hnotified : OpenNotified c t.log ↔ ∃ a ∈ t.recent c, a.sends) : t.Inv where
  cb := hcb.trans hinv.cb
  untried c' := by
    by_cases hc : c' = c
    · exact hc ▸ huntried
    · rw [(hothers c' hc).codec, (hothers c' hc).attempts]
      exact hinv.untried c'
  recent c' := by
    by_cases hc : c' = c
    · exact hc ▸ hrecent
    · rw [(hothers c' hc).recent, (hothers c' hc).attempts]
      exact hinv.recent c'
  stored c' := by
    by_cases hc : c' = c
    · exact hc ▸ hstored
    · rw [(hothers c' hc).codec, (hothers c' hc).attempts]
      exact hinv.stored c'
  notified c' := by
    by_cases hc : c' = c
    · exact hc ▸ hnotified
    · rw [(hothers c' hc).log, (hothers c' hc).recent]
      exact hinv.notified c'

/-- A codec that was just made has no parameters, and nothing was notified for it.
    What an earlier codec of the call had notified does not count for this one. -/
theorem Codecs.Inv.alloc {s : Codecs} (hinv : s.Inv) {c : Nat} (hcodec : s.codec c = none) :
    Codecs.Inv { s with
      codec := Function.update s.codec c (some vc_alloc_codec)
      log := .allocated c :: s.log } := by
  have huntried := hinv.untried c hcodec
  have hrecent : s.recent c = [] := List.prefix_nil.mp (huntried ▸ hinv.recent c)
  refine hinv.update (c := c) rfl (fun c' hc => ⟨Function.update_of_ne hc _ _, rfl, rfl, ?_⟩) (fun _ => huntried)
    (hinv.recent c) ?_ ?_
  · rw [openNotified_reset (.inl rfl), and_iff_right hc.symm]
  · intro vc _ a ha
    rw [huntried] at ha
    cases ha
  · rw [openNotified_reset (.inl rfl), hrecent]
    simp

/-- An open stores its parameters whether it succeeds or not, and notifies only if
    it does. -/
theorem Codecs.Inv.open {s : Codecs} (hinv : s.Inv) {c : Nat} {vc : vpt_codec}
    (param : pjmedia_vid_codec_param) (out : OpenOutcome) :
    Codecs.Inv { s with
      codec := Function.update s.codec c (some (vc_open s.vpt vc param out).2.1)
      attempts := Function.update s.attempts c (⟨param, out⟩ :: s.attempts c)
      recent := Function.update s.recent c (⟨param, out⟩ :: s.recent c)
      log := logged_callbacks c (vc_open s.vpt vc param out).2.2 s.log } := by
  obtain ⟨hprm, -, hopen⟩ := vc_open_callbacks hinv.cb vc ⟨param, out⟩
  refine hinv.update (c := c) rfl (fun c' hc => ⟨Function.update_of_ne hc _ _, Function.update_of_ne hc _ _,
    Function.update_of_ne hc _ _, ?_⟩) ?_ ?_ ?_ ?_
  · rw [openNotified_logged_callbacks, or_iff_right fun h => hc h.1.symm]
  · simp
  · simpa using hinv.recent c
  · intro vc' hvc' a ha
    simp only [Function.update_self, Option.mem_some_iff, List.head?_cons] at hvc' ha
    subst hvc' ha
    exact ⟨param, hprm, rfl⟩
  · rw [openNotified_logged_callbacks, hopen, hinv.notified c]
    simp

/-- A modify leaves the direction of the stream alone. PJMEDIA modifies only what is
    open, so a successful open is the latest attempt. -/
theorem Codecs.Inv.modify {s : Codecs} (hinv : s.Inv) {c : Nat} {vc : vpt_codec} {a : OpenAttempt}
    {rest : List OpenAttempt} (hcodec : s.codec c = some vc) (hrecent : s.recent c = a :: rest)
    (hsup : a.out.supported) (avg_bps max_bps : UInt32) :
    Codecs.Inv { s with
      codec := Function.update s.codec c (some (vc_modify s.vpt vc avg_bps max_bps).1)
      log := logged_callbacks c (vc_modify s.vpt vc avg_bps max_bps).2 s.log } := by
  have hhead : a ∈ (s.attempts c).head? := by
    obtain ⟨older, heq⟩ := hinv.recent c
    simp [← heq, hrecent]
  obtain ⟨prm, hprm, hdir⟩ := hinv.stored c vc hcodec a hhead
  obtain ⟨⟨prm', hprm', hdir'⟩, -, hopen⟩ := vc_modify_callbacks hinv.cb hprm avg_bps max_bps
  refine hinv.update (c := c) rfl (fun c' hc => ⟨Function.update_of_ne hc _ _, rfl, rfl, ?_⟩) ?_ (hinv.recent c)
    ?_ ?_
  · rw [openNotified_logged_callbacks, or_iff_right fun h => hc h.1.symm]
  · simp
  · intro vc' hvc' b hb
    simp only [Function.update_self, Option.mem_some_iff] at hvc'
    subst hvc'
    cases Option.mem_unique hhead hb
    exact ⟨prm', hprm', hdir'.trans hdir⟩
  · rw [openNotified_logged_callbacks, hopen, hinv.notified c, or_iff_right_iff_imp]
    rintro ⟨-, hencoding⟩
    exact ⟨a, by simp [hrecent], by rwa [← hdir], hsup⟩

/-- A close leaves the parameters of its codec as they are: only what was notified
    before it no longer counts. -/
theorem Codecs.Inv.close {s : Codecs} (hinv : s.Inv) (c : Nat) (vc : vpt_codec) :
    Codecs.Inv { s with
      recent := Function.update s.recent c []
      closes := Function.update s.closes c (s.closes c + 1)
      log := .closed c :: logged_callbacks c (vc_close s.vpt vc) s.log } := by
  refine hinv.update (c := c) rfl (fun c' hc => ⟨rfl, rfl, Function.update_of_ne hc _ _, ?_⟩) (hinv.untried c)
    (by simp) (hinv.stored c) ?_
  · rw [openNotified_reset (.inr rfl), and_iff_right hc.symm, openNotified_logged_callbacks,
      or_iff_right fun h => hc h.1.symm]
  · rw [openNotified_reset (.inr rfl)]
    simp

/-- One case for each call. -/
theorem Codecs.Inv.step {s t : Codecs} (hinv : s.Inv) {op : CodecOp} (hstep : s.step op = some t) :
    t.Inv := by
  cases Codecs.step_inv hstep with
  | alloc hcodec => exact hinv.alloc hcodec
  | «open» => exact hinv.open _ _
  | modify hcodec hrecent hsup => exact hinv.modify hcodec hrecent hsup _ _
  | close => exact hinv.close _ _
  | reconfigure => exact ⟨hinv.cb, hinv.untried, hinv.recent, hinv.stored, hinv.notified⟩

/-- The invariant holds in every reachable state, whatever is admitted. -/
theorem codecs_inv {cfg : pjrs_vpt_config} {ok : Codecs → CodecOp → Prop} {s : Codecs}
    (hreach : (codecs cfg).Reach ok s) : s.Inv :=
  hreach.invariant (.start cfg) fun _ _ _ _ _ hstep hinv => hinv.step hstep

/-- A close of the codec is notified only after an open was. -/
def ClosePaired (s : Codecs) (c : Nat) : Prop :=
  ∀ vc ∈ s.codec c, .encoder_close ∈ vc_close s.vpt vc → OpenNotified c s.log

/-- Where a codec is closed, the close is paired exactly under the condition. -/
theorem closePaired_iff {s t : Codecs} (hinv : s.Inv) {c : Nat}
    (hstep : s.step (.close c) = some t) : ClosePaired s c ↔ CloseAfterOpen s (.close c) := by
  cases Codecs.step_inv hstep with
  | close hcodec hlt =>
    obtain ⟨a, rest, hattempts⟩ := List.exists_cons_of_length_pos (Nat.zero_lt_of_lt hlt)
    obtain ⟨prm, hprm, hdir⟩ := hinv.stored c _ hcodec a (by simp [hattempts])
    simp only [ClosePaired, CloseAfterOpen, hcodec, hattempts, Option.mem_some_iff, List.head?_cons,
      forall_eq', vc_close_callbacks hinv.cb hprm, hdir, hinv.notified c]

/-- A step that meets the condition notifies no close without an open. One case for
    each call of the codec; only `vc_close` notifies a close. -/
theorem paired_step {s t : Codecs} (hinv : s.Inv) {op : CodecOp} (hok : CloseAfterOpen s op)
    (hstep : s.step op = some t) (hpaired : Paired s.log) : Paired t.log := by
  cases Codecs.step_inv hstep with
  | alloc => exact paired_reset (.inl rfl) hpaired
  | @«open» _ param out vc =>
    obtain ⟨-, hclose, -⟩ := vc_open_callbacks hinv.cb vc ⟨param, out⟩
    exact paired_logged_callbacks hpaired fun hmem => absurd hmem hclose
  | modify =>
    refine paired_logged_callbacks hpaired fun hmem => absurd hmem ?_
    unfold vc_modify
    split
    · simp
    · exact not_close_mem_notify_open _ _
  | close hcodec =>
    have hiff := closePaired_iff hinv hstep
    exact paired_reset (.inr rfl) (paired_logged_callbacks hpaired (hiff.mpr hok _ hcodec))
  | reconfigure => exact hpaired

/-- In a run in which every close follows a sending open, or an open that was for
    receiving only, every `encoder_close` pairs up with an `encoder_open`. A close
    that does not meet the condition is notified unpaired, from whatever state it is
    reached. The condition is on the opens and closes of the one codec; the outcomes
    of its opens, and all that other codecs do, are arbitrary. -/
theorem encoder_close_paired (cfg : pjrs_vpt_config) :
    (∀ s, (codecs cfg).Reach CloseAfterOpen s → Paired s.log) ∧
      ∀ s t c, (codecs cfg).Reach (fun _ _ => True) s → (codecs cfg).step s (.close c) = some t →
        (ClosePaired s c ↔ CloseAfterOpen s (.close c)) := by
  constructor
  · intro s hreach
    exact hreach.invariant logged_nil fun _ _ _ hprev hok hstep hpaired =>
      paired_step (codecs_inv hprev) hok hstep hpaired
  · intro s t c hreach hstep
    exact closePaired_iff (codecs_inv hreach) hstep

/-- The parameters of a stream that sends and receives. -/
def sendrecv_param : pjmedia_vid_codec_param where
  dir := { encoding := true, decoding := true }
  width := 640
  height := 480
  avg_bps := 1000000
  max_bps := 1500000
  enc_mtu := 1400

/-- A remote that names packetization mode 1. -/
def mode_1 : OpenOutcome where
  parse_fmtp := .PJ_SUCCESS
  packetization_mode := PJMEDIA_H264_PACKETIZER_MODE_NON_INTERLEAVED
  packetizer_create := .PJ_SUCCESS

/-- A codec opened for sending and closed. -/
theorem encoder_close_paired_after_open :
    ∃ s t, (codecs vpt_state.zero.cfg).exec (codecs vpt_state.zero.cfg).start
        [.alloc 0, .open 0 sendrecv_param mode_1] = some s ∧ s.step (.close 0) = some t ∧
      Paired t.log ∧ (ClosePaired s 0 ↔ CloseAfterOpen s (.close 0)) := by
  have hsends : OpenAttempt.sends ⟨sendrecv_param, mode_1⟩ := ⟨rfl, by decide⟩
  have hadmits : (codecs vpt_state.zero.cfg).Admits CloseAfterOpen (codecs vpt_state.zero.cfg).start
      [.alloc 0, .open 0 sendrecv_param mode_1, .close 0] := by
    exact .cons rfl trivial <| .cons rfl trivial <| .cons rfl (fun _ _ _ => ⟨_, List.mem_cons_self, hsends⟩) trivial
  exact ⟨_, _, rfl, rfl, (encoder_close_paired _).1 _ (Machine.Reach.exec .start hadmits rfl),
    (encoder_close_paired vpt_state.zero.cfg).2 _ _ 0 (Machine.Reach.exec .start
      (Machine.admits_of_forall (fun _ _ => trivial) _ [.alloc 0, .open 0 sendrecv_param mode_1]) rfl) rfl⟩

/-- A remote that names packetization mode 2. -/
def mode_2 : OpenOutcome where
  parse_fmtp := .PJ_SUCCESS
  packetization_mode := 2
  packetizer_create := .PJ_SUCCESS

/-- A codec whose only open failed is closed, and its close is notified: nothing
    clears the parameters that a failed open has stored. -/
theorem encoder_close_not_paired :
    ¬ ∀ (cfg : pjrs_vpt_config) (s : Codecs),
      (codecs cfg).Reach (fun _ _ => True) s → Paired s.log := by
  intro hclaim
  have hreach := fun s => Machine.Reach.exec (m := codecs vpt_state.zero.cfg) (t := s) .start
    (Machine.admits_of_forall (fun _ _ => trivial) _
      [.alloc 0, .open 0 sendrecv_param mode_2, .close 0])
  have hpaired := hclaim _ _ (hreach _ rfl)
  have hopen : OpenNotified 0 [.allocated 0] :=
    hpaired (.callback 0 .encoder_close) [.allocated 0] (List.suffix_cons (Notice.closed 0) _) 0 rfl
  rw [OpenNotified, since_cons] at hopen
  simp [IsOpen, IsReset] at hopen

end pjsua_rust.video_passthrough
