import PjsuaRust.Pipeline.State

open pjsua_rust.video pjsua_rust.video_passthrough transition feeds serial

namespace pjsua_rust.sending

/-- What an open codec is known to hold. -/
def CodecKnows (size : Nat) (codec : Option vpt_codec) (f : Feed Accepted) : Prop :=
  ∃ vc, codec = some vc ∧ vc.enc_buf.length = size ∧
    (f.fresh = false → ∀ t ∈ f.last, vc.enc_have_seq = true ∧ vc.enc_last_seq = u32 t)

/-- The feed that a pipeline implements: the queue holds what stands from the
    front on, the bridge a whole copy, and the codec knows what it took last. -/
structure Represents (size : Nat) (s : Pipeline) (f : Feed Accepted) : Prop where
  cb : s.module.vpt.cb = install_callbacks
  cfg : s.module.vpt.cfg.max_frame_size.toNat = size
  framebytes : s.module.vpt.framebytes.toNat = AU_HDR_SIZE + size
  max_frame_size : s.shared.max_frame_size = size
  accepted : f.accepted = s.accepted
  ids : ∀ i a, s.accepted[i]? = some a →
    a.frame.id = u32 i ∧ a.frame.data ≠ [] ∧ a.frame.data.length ≤ size
  next_id : s.shared.queue.next_id = u32 s.accepted.length
  frames : s.shared.queue.frames = (s.accepted.drop f.front).map Accepted.frame
  held : f.held = s.held
  exact : s.bridge.Exact s.module.vpt
  empty : s.held = none → s.bridge.buf.hdr.len = 0
  bridge : ∀ h ∈ s.held, ∃ a, s.accepted[h]? = some a ∧ a.frame = au_frame s.bridge
  codec : s.is_open = true → CodecKnows size s.codec f
  taken : s.taken = f.taken.map Accepted.frame

/-- What a run needs of the bridge and of the ids in play: buffers are as large
    as the device says, and fewer than `2 ^ 31` frames were accepted after the
    one in the buffer that is encoded. -/
def Fresh (s : Pipeline) : PipelineOp → Prop
  | .poll buf => buf.Exact s.module.vpt
  | .encode_begin .. => ∀ h ∈ s.held, s.accepted.length ≤ h + 2 ^ 31
  | _ => True

instance (s : Pipeline) (op : PipelineOp) : Decidable (Fresh s op) :=
  match op with
  | .poll buf => inferInstanceAs (Decidable (buf.Exact s.module.vpt))
  | .encode_begin .. => inferInstanceAs (Decidable (∀ h ∈ s.held, s.accepted.length ≤ h + 2 ^ 31))
  | .push_frame .. | .clear | .reconfigure .. | .alloc | .open .. | .modify .. | .close | .encode_more .. =>
    .isTrue trivial

/-- A passthrough that was just installed is an empty feed, whatever was installed
    and used before it. -/
theorem Installed.represents {config : PassthroughConfig} {module : Module}
    (hinstalled : Installed config module) :
    Represents config.max_frame_size (pipeline config module).start {} := by
  obtain ⟨p, out, k, p', hinstall, rfl⟩ := hinstalled.install
  have hsize := hinstalled.size
  obtain ⟨-, hcfg, hbytes, hcb, -⟩ := install_ok hinstall
  refine ⟨hcb, ?_, ?_, rfl, rfl, by simp [pipeline], rfl, rfl, rfl, ⟨rfl, rfl⟩, fun _ => rfl,
    by simp [pipeline], by simp [pipeline], rfl⟩
  · rw [pipeline, hcfg]
    exact c_config_max_frame_size (by omega)
  · rw [pipeline, hbytes]
    exact framebytes_toNat hsize

/-- The parts of the module state that no call changes. -/
structure SameSizes (vpt vpt' : vpt_state) : Prop where
  cb : vpt'.cb = vpt.cb
  max_frame_size : vpt'.cfg.max_frame_size = vpt.cfg.max_frame_size
  framebytes : vpt'.framebytes = vpt.framebytes

theorem SameSizes.refl (vpt : vpt_state) : SameSizes vpt vpt := ⟨rfl, rfl, rfl⟩

section Steps

variable {size : Nat} {s : Pipeline} {f : Feed Accepted} (hrep : Represents size s f)
include hrep

/-- As many frames are queued as the feed has accepted and not yet taken or dropped. -/
theorem Represents.length_frames : s.shared.queue.frames.length = s.accepted.length - f.front := by
  rw [hrep.frames, List.length_map, List.length_drop]

/-- A call that accepts nothing and leaves the bridge's buffer. The queue may lose
    frames at its front, as long as the feed does. -/
theorem Represents.keep {t : Pipeline} {f' : Feed Accepted}
    (hvpt : SameSizes s.module.vpt t.module.vpt)
    (hshared : t.shared.max_frame_size = s.shared.max_frame_size ∧
      t.shared.queue.next_id = s.shared.queue.next_id)
    (haccepted : t.accepted = s.accepted) (hheld : t.held = s.held) (hbridge : t.bridge = s.bridge)
    (hfeed : f'.accepted = f.accepted ∧ f'.held = f.held)
    (hframes : t.shared.queue.frames = (s.accepted.drop f'.front).map Accepted.frame)
    (hcodec : t.is_open = true → CodecKnows size t.codec f')
    (htaken : t.taken = f'.taken.map Accepted.frame) : Represents size t f' where
  cb := hvpt.cb.trans hrep.cb
  cfg := (congrArg _ hvpt.max_frame_size).trans hrep.cfg
  framebytes := (congrArg _ hvpt.framebytes).trans hrep.framebytes
  max_frame_size := hshared.1.trans hrep.max_frame_size
  accepted := by rw [hfeed.1, haccepted, hrep.accepted]
  ids := by
    rw [haccepted]
    exact hrep.ids
  next_id := by rw [hshared.2, haccepted, hrep.next_id]
  frames := by rw [hframes, haccepted]
  held := by rw [hfeed.2, hheld, hrep.held]
  exact := by
    rw [hbridge, pjmedia_frame.Exact, hvpt.framebytes]
    exact hrep.exact
  empty := by
    rw [hheld, hbridge]
    exact hrep.empty
  bridge := by
    rw [hheld, haccepted, hbridge]
    exact hrep.bridge
  codec := hcodec
  taken := htaken

/-- A call that leaves the queue as it is too. What the codec knows of the feed must
    be shown again, since the codec is what such calls change. -/
theorem Represents.keep_queue {t : Pipeline} (hvpt : SameSizes s.module.vpt t.module.vpt)
    (hshared : t.shared.max_frame_size = s.shared.max_frame_size ∧ t.shared.queue = s.shared.queue)
    (haccepted : t.accepted = s.accepted) (hheld : t.held = s.held) (hbridge : t.bridge = s.bridge)
    (hcodec : t.is_open = true → CodecKnows size t.codec f) (htaken : t.taken = s.taken) :
    Represents size t f :=
  hrep.keep hvpt ⟨hshared.1, by rw [hshared.2]⟩ haccepted hheld hbridge ⟨rfl, rfl⟩
    (by rw [hshared.2, hrep.frames]) hcodec (by rw [htaken, hrep.taken])

/-- What is kept of the queue stands from some later place on: of the frames
    accepted so far, the last ones. -/
theorem Represents.kept (hinv : f.Inv) {kept : List Queued} (hkept : kept <:+ s.shared.queue.frames) :
    ∃ front, f.front ≤ front ∧ front ≤ s.accepted.length ∧
      kept = (s.accepted.drop front).map Accepted.frame ∧ front + kept.length = s.accepted.length := by
  have hlen := hrep.length_frames
  have hfront := hinv.front
  rw [hrep.accepted] at hfront
  have hle := hkept.length_le
  refine ⟨s.accepted.length - kept.length, by omega, by omega, ?_, by omega⟩
  calc kept = s.shared.queue.frames.drop (s.shared.queue.frames.length - kept.length) :=
        List.suffix_iff_eq_drop.mp hkept
    _ = ((s.accepted.drop f.front).drop (s.shared.queue.frames.length - kept.length)).map Accepted.frame := by
        rw [List.map_drop, ← hrep.frames]
    _ = (s.accepted.drop (s.accepted.length - kept.length)).map Accepted.frame := by
        rw [List.drop_drop]
        congr 2
        omega

/-- A frame that is accepted behind what is kept. It gets the next id, also where
    the counter wraps, and the history remembers it with its keyframe flag. -/
theorem Represents.accept {frame : List UInt8} {keyframe : Bool}
    (hframe : frame ≠ [] ∧ frame.length ≤ s.shared.max_frame_size) {t : Pipeline} {x : Accepted} (front : Nat)
    (hshared : t.shared = { s.shared with
      queue := Queue.push_back { s.shared.queue with
        frames := (s.accepted.drop front).map Accepted.frame, need_keyframe := false } frame keyframe })
    (hx : x.frame = { id := s.shared.queue.next_id, data := frame, keyframe })
    (haccepted : t.accepted = s.accepted ++ [x]) (hfront : front ≤ s.accepted.length)
    (hmodule : t.module = s.module) (hbridge : t.bridge = s.bridge) (hcodec : t.codec = s.codec)
    (hopen : t.is_open = s.is_open) (hheld : t.held = s.held) (htaken : t.taken = s.taken) :
    Represents size t (f.accept x front) where
  cb := hmodule ▸ hrep.cb
  cfg := hmodule ▸ hrep.cfg
  framebytes := hmodule ▸ hrep.framebytes
  max_frame_size := by
    rw [hshared]
    exact hrep.max_frame_size
  accepted := by rw [Feed.accept, hrep.accepted, haccepted]
  ids i a ha := by
    rw [haccepted] at ha
    rcases Nat.lt_trichotomy i s.accepted.length with hlt | heq | hgt
    · rw [List.getElem?_append_left hlt] at ha
      exact hrep.ids i a ha
    · rw [heq, List.getElem?_concat_length] at ha
      cases ha
      rw [hx, heq]
      exact ⟨hrep.next_id, hframe.1, hrep.max_frame_size ▸ hframe.2⟩
    · rw [List.getElem?_eq_none (by simp; omega)] at ha
      cases ha
  next_id := by
    rw [hshared, haccepted, List.length_append, List.length_singleton]
    refine u32_succ _ _ ?_
    rw [← hrep.next_id]
    exact max_one_eq _
  frames := by
    rw [hshared, haccepted, Feed.accept, List.drop_append_of_le_length hfront, List.map_append,
      List.map_singleton, hx]
    rfl
  held := hheld ▸ hrep.held
  exact := by
    rw [hbridge, hmodule]
    exact hrep.exact
  empty := by
    rw [hbridge, hheld]
    exact hrep.empty
  bridge h hh := by
    rw [hheld] at hh
    obtain ⟨a, ha, hframe⟩ := hrep.bridge h hh
    exact ⟨a, by rw [haccepted]; exact Sender.getElem?_accept ha x, by rw [hbridge]; exact hframe⟩
  codec := by
    rw [hopen, hcodec]
    exact hrep.codec
  taken := htaken ▸ hrep.taken

omit hrep in
/-- Everything one push does to the feed and to what the history says of it. -/
inductive PushMove (s : Pipeline) (f : Feed Accepted) (frame : List UInt8) (keyframe : Bool)
    (t : Pipeline) : Feed Accepted → Prop where
  | size (hsize : frame = [] ∨ s.shared.max_frame_size < frame.length) (hshared : t.shared = s.shared)
      (haccepted : t.accepted = s.accepted) (hlog : t.log = s.log) : PushMove s f frame keyframe t f
  | waiting (hneed : s.shared.queue.need_keyframe = true) (hshared : t.shared = s.shared)
      (haccepted : t.accepted = s.accepted) (hlog : t.log = s.log) : PushMove s f frame keyframe t f
  | flushed (hfull : s.shared.max_queue ≤ s.shared.queue.frames.length)
      (hneed : t.shared.queue.need_keyframe = true) (haccepted : t.accepted = s.accepted)
      (hlog : t.log = .overflow s.held_frame :: s.log) :
      PushMove s f frame keyframe t (f.drop f.accepted.length)
  | room (x : Accepted) (hnumber : x.number = s.pushed) (hkey : x.frame.keyframe = keyframe)
      (hwait : s.shared.queue.need_keyframe = true → keyframe = true)
      (hneed : t.shared.queue.need_keyframe = false) (haccepted : t.accepted = s.accepted ++ [x])
      (hframes : t.shared.queue.frames = s.shared.queue.frames ++ [x.frame])
      (hlog : t.log = s.log) : PushMove s f frame keyframe t (f.accept x f.front)
  | overflow (x : Accepted) (front : Nat) (hnumber : x.number = s.pushed) (hkey : x.frame.keyframe = keyframe)
      (hwait : s.shared.queue.need_keyframe = true → keyframe = true)
      (hfull : s.shared.max_queue ≤ s.shared.queue.frames.length)
      (hneed : t.shared.queue.need_keyframe = false) (haccepted : t.accepted = s.accepted ++ [x])
      (hle : f.front ≤ front) (hfront : front ≤ f.accepted.length)
      (hhead : ∃ y, t.accepted[front]? = some y ∧ y.frame.keyframe = true)
      (hlog : t.log = .overflow s.held_frame :: s.log) : PushMove s f frame keyframe t (f.accept x front)

omit hrep in
theorem not_overflows_of_refused {self : Shared} {frame : List UInt8} {keyframe : Bool}
    (h : frame = [] ∨ self.max_frame_size < frame.length ∨
      keyframe = false ∧ self.queue.need_keyframe = true) :
    overflows self frame keyframe = false := by
  unfold overflows
  rcases h with rfl | hsize | ⟨hplain, hneed⟩
  · rfl
  · rw [decide_eq_false (show ¬ frame.length ≤ self.max_frame_size by omega)]
    simp
  · simp [hplain, hneed]

omit hrep in
/-- Of a frame that the queue takes at all, only the length of the queue decides
    whether it overflows; the frame's own size and flag do not matter any more. -/
theorem overflows_eq {self : Shared} {frame : List UInt8} {keyframe : Bool}
    (hframe : frame ≠ [] ∧ frame.length ≤ self.max_frame_size)
    (hneed : self.queue.need_keyframe = true → keyframe = true) :
    overflows self frame keyframe = decide (self.max_queue ≤ self.queue.frames.length) := by
  have hwait : (keyframe || !self.queue.need_keyframe) = true := by
    cases h : self.queue.need_keyframe with
    | false => simp
    | true => simp [hneed h]
  simp [overflows, hframe, hwait]

/-- A push either leaves the feed, drops all of it, or accepts one frame behind
    what is kept. -/
theorem Represents.push (hinv : f.Inv) (frame : List UInt8) (keyframe : Bool) :
    ∃ f', Represents size (s.push_frame frame keyframe) f' ∧ f'.Inv ∧
      PushMove s f frame keyframe (s.push_frame frame keyframe) f' := by
  have hfront := hrep.accepted ▸ hinv.front
  have hstep := VideoPassthrough.push_frame_step s.shared frame keyframe
  unfold Pipeline.push_frame
  generalize VideoPassthrough.push_frame s.shared frame keyframe = pushed at hstep
  cases hstep with
  | size hsize =>
    rw [not_overflows_of_refused (by tauto)]
    exact ⟨f, hrep.keep_queue (.refl _) ⟨rfl, rfl⟩ (List.append_nil _) rfl rfl hrep.codec rfl, hinv,
      .size hsize rfl (List.append_nil _) rfl⟩
  | waiting hframe hneed hplain =>
    rw [not_overflows_of_refused (.inr (.inr ⟨hplain, hneed⟩))]
    exact ⟨f, hrep.keep_queue (.refl _) ⟨rfl, rfl⟩ (List.append_nil _) rfl rfl hrep.codec rfl, hinv,
      .waiting hneed rfl (List.append_nil _) rfl⟩
  | flushed hframe hneed hplain hfull =>
    rw [overflows_eq hframe (by simp [hneed]), decide_eq_true hfull]
    refine ⟨_, ?_, hinv.drop hinv.front (Nat.le_refl _), .flushed hfull rfl (List.append_nil _) rfl⟩
    refine hrep.keep (.refl _) ⟨rfl, rfl⟩ (List.append_nil _) rfl rfl ⟨rfl, rfl⟩ ?_ hrep.codec hrep.taken
    rw [Feed.drop, hrep.accepted, List.drop_length]
    rfl
  | accepted hframe hneed kept hkept =>
    rw [overflows_eq hframe hneed]
    by_cases hfull : s.shared.max_queue ≤ s.shared.queue.frames.length
    · rw [decide_eq_true hfull]
      obtain ⟨front, hle, hfront', hkept', hlen⟩ := hrep.kept hinv hkept.suffix
      refine ⟨_, hrep.accept hframe front ?_ rfl rfl hfront' rfl rfl rfl rfl rfl rfl,
        hinv.accept _ hle (hrep.accepted ▸ hfront'),
        .overflow _ front rfl rfl hneed hfull rfl rfl hle (hrep.accepted ▸ hfront') ?_ rfl⟩
      · rw [← hkept']
      · cases kept with
        | nil =>
          refine ⟨{ number := s.pushed, frame := { id := s.shared.queue.next_id, data := frame, keyframe } },
            ?_, hkept.keyframe_of_nil hfull⟩
          rw [show front = s.accepted.length by simpa using hlen]
          exact List.getElem?_concat_length
        | cons head rest =>
          have hhead := hkept.head_key hfull head rfl
          have hdrop : (s.accepted[front]?).map Accepted.frame = some head := by
            rw [← List.head?_drop, ← List.head?_map, ← hkept', List.head?_cons]
          obtain ⟨y, hy, rfl⟩ := Option.map_eq_some_iff.mp hdrop
          exact ⟨y, Sender.getElem?_accept hy _, hhead⟩
    · rw [decide_eq_false hfull]
      have hkept' : kept = s.shared.queue.frames := by
        cases hkept with
        | room => rfl
        | newest_key hfull' => exact absurd hfull' hfull
        | none hfull' => exact absurd hfull' hfull
      refine ⟨_, hrep.accept hframe f.front ?_ rfl rfl hfront rfl rfl rfl rfl rfl rfl,
        hinv.accept _ (Nat.le_refl _) hinv.front, .room _ rfl rfl hneed rfl rfl ?_ rfl⟩
      · rw [← hrep.frames, hkept']
      · rw [hkept']
        rfl

end Steps

end pjsua_rust.sending
