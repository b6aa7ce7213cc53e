import PjsuaRust.Passthrough.Fate
import PjsuaRust.Pipeline.Order

open pjsua_rust.video pjsua_rust.video_passthrough transition feeds serial

namespace pjsua_rust.sending

/-- One turn of the stream: the bridge polls into a buffer, and the encoder is
    given it. -/
structure Turn where
  buf : pjmedia_frame
  force_keyframe : Bool
  packetize : Packetizer
  out_size : Nat
  output : Output

/-- The bridge's buffer is as large as the device says, and the one for the packet
    has room at all: with `out_size` 0 the encoder does not look at the frame. -/
structure Turn.Fits (r : Turn) (vpt : vpt_state) : Prop where
  exact : r.buf.Exact vpt
  room : r.out_size ≠ 0

def Turn.ops (r : Turn) : List PipelineOp :=
  [.poll r.buf, .encode_begin r.force_keyframe r.packetize r.out_size r.output]

/-- The accepted frames that are still queued. -/
def Pipeline.waiting (s : Pipeline) : List Accepted :=
  s.accepted.drop (s.accepted.length - s.shared.queue.frames.length)

/-- Whether the codec sends what is not a keyframe. -/
def Pipeline.keyed (s : Pipeline) (vc : vpt_codec) : Bool :=
  sent_key vc s.module.vpt.source_epoch (s.module.vpt.keyed_epoch == s.module.vpt.source_epoch)

/-- What the history says of frames that a codec takes one after the other,
    newest first. -/
def sent_entries (vc : vpt_codec) : Bool → List (Turn × Accepted) → List (Sent Accepted)
  | _, [] => []
  | keyed, (r, x) :: rest =>
    let outcome := fate keyed x.frame.keyframe (vc.refuses r.packetize x.frame.data)
    sent_entries vc outcome.sent rest ++ sent_entry outcome x

theorem sent_entries_congr {vc vc' : vpt_codec} (hprm : vc'.prm = vc.prm)
    (hsingle : vc'.enc_single_nal = vc.enc_single_nal) (keyed : Bool) (taken : List (Turn × Accepted)) :
    sent_entries vc' keyed taken = sent_entries vc keyed taken := by
  induction taken generalizing keyed with
  | nil => rfl
  | cons first rest ih =>
    rw [sent_entries, sent_entries, vpt_codec.refuses_congr hprm hsingle]
    exact congrArg (· ++ _) (ih _)

/-- Where nothing is refused, what is handed over are the frames from the first
    keyframe on. -/
theorem sent_entries_of_accepts {vc : vpt_codec} {taken : List (Turn × Accepted)}
    (haccepts : ∀ p ∈ taken, vc.refuses p.1.packetize p.2.frame.data = false) (keyed : Bool) :
    sent_entries vc keyed taken = (((taken.map Prod.snd).dropWhile fun x =>
      !keyed && !x.frame.keyframe).map Sent.handed).reverse := by
  induction taken generalizing keyed with
  | nil => rfl
  | cons first rest ih =>
    obtain ⟨r, x⟩ := first
    have hrest := ih fun p hp => haccepts p (List.mem_cons_of_mem _ hp)
    rw [sent_entries, haccepts (r, x) List.mem_cons_self, List.map_cons, List.dropWhile_cons]
    -- Once a keyframe has gone out, nothing of what follows is left out.
    have hall (l : List Accepted) : (l.dropWhile fun x => !true && !x.frame.keyframe) = l := by
      cases l <;> rfl
    cases hgoes : keyed || x.frame.keyframe with
    | true =>
      have hkept : (!keyed && !x.frame.keyframe) = false := by rw [← Bool.not_or, hgoes, Bool.not_true]
      have hout : fate keyed x.frame.keyframe false = .packetized := by
        rw [fate, hgoes]
        rfl
      rw [hkept, if_neg Bool.false_ne_true, hout]
      change sent_entries vc true rest ++ [.handed x] = _
      rw [hrest, hall, List.map_cons, List.reverse_cons]
    | false =>
      have hleft : (!keyed && !x.frame.keyframe) = true := by rw [← Bool.not_or, hgoes, Bool.not_false]
      have hout : fate keyed x.frame.keyframe false = .skipped := by
        rw [fate, hgoes]
        rfl
      obtain ⟨hkeyed, -⟩ := Bool.or_eq_false_iff.mp hgoes
      rw [hleft, if_pos rfl, hout]
      change sent_entries vc false rest ++ [] = _
      rw [List.append_nil, hrest, hkeyed]

theorem map_snd_zip_eq_take {α β : Type} (l : List α) (l' : List β) :
    (l.zip l').map Prod.snd = l'.take l.length := by
  induction l generalizing l' with
  | nil => rfl
  | cons x l ih =>
    cases l' with
    | nil => rfl
    | cons y l' => exact congrArg (y :: ·) (ih l')

/-- An open codec that can take what is queued: no frame in play is so far ahead
    that its id compares as older, and the front is not taken for the frame taken
    last. -/
structure Ready (size : Nat) (s : Pipeline) (vc : vpt_codec) : Prop where
  represents : ∃ f, Represents size s f ∧ f.Inv
  is_open : s.is_open = true
  codec : s.codec = some vc
  length : s.shared.queue.frames.length ≤ 2 ^ 31
  front : ∀ q ∈ s.shared.queue.frames.head?, vc.enc_have_seq = true → q.id ≠ vc.enc_last_seq

/-- In every reachable state in which it is open, the codec can take what is queued,
    unless that is too much or begins with the frame taken last. -/
theorem Ready.of_reach {config : PassthroughConfig} {module : Module} (hinstalled : Installed config module)
    {s : Pipeline} (hreach : (pipeline config module).Reach Fresh s) {vc : vpt_codec} (hopen : s.is_open = true)
    (hcodec : s.codec = some vc) (hlength : s.shared.queue.frames.length ≤ 2 ^ 31)
    (hfront : ∀ q ∈ s.shared.queue.frames.head?, vc.enc_have_seq = true → q.id ≠ vc.enc_last_seq) :
    Ready config.max_frame_size s vc :=
  ⟨represents_of_reach hinstalled hreach, hopen, hcodec, hlength, hfront⟩

section

variable {size : Nat} {s t : Pipeline} {f : Feed Accepted}

/-- The frames that wait are those the feed has accepted and not given up. -/
theorem Represents.waiting_eq (hrep : Represents size s f) (hinv : f.Inv) : s.waiting = s.accepted.drop f.front := by
  have hfront := hrep.accepted ▸ hinv.front
  rw [Pipeline.waiting, hrep.length_frames]
  congr 1
  omega

/-- The queue holds the waiting frames, in the order in which they were accepted. -/
theorem Represents.frames_eq (hrep : Represents size s f) (hinv : f.Inv) :
    s.shared.queue.frames = s.waiting.map Accepted.frame := by
  rw [hrep.waiting_eq hinv, hrep.frames]

theorem Ready.frames_eq {vc : vpt_codec} (hready : Ready size s vc) :
    s.shared.queue.frames = s.waiting.map Accepted.frame := by
  obtain ⟨f, hrep, hinv⟩ := hready.represents
  exact hrep.frames_eq hinv

/-- A poll can be taken whatever is queued. The buffer is as large as the device
    says, and no frame in the queue is larger. -/
theorem Represents.polls (hrep : Represents size s f) {buf : pjmedia_frame} (hexact : buf.Exact s.module.vpt) :
    ∃ t, s.step (.poll buf) = some t ∧ t.bridge.buf.hdr = polled_hdr s.module.vpt (some s.shared) := by
  have hcfg := hrep.cfg
  have hbytes := hrep.framebytes
  obtain ⟨hsize, hcap⟩ := hexact
  obtain ⟨r, hr, hpolled⟩ := vd_get_frame_ok s.module.vpt buf (by omega) (by omega) (some s.shared) s.strm
  obtain ⟨-, -, hhdr, -⟩ := hpolled (by omega)
  simp only [Pipeline.step, Pipeline.poll, hr]
  exact ⟨_, rfl, hhdr⟩

/-- The header of a frame that is queued and polled: its id, its size and its
    keyframe flag, with the magic that the codec looks for. -/
theorem Represents.polled_hdr_eq (hrep : Represents size s f) (hinv : f.Inv) {x : Accepted} {rest : List Accepted}
    (hwaiting : s.waiting = x :: rest) :
    polled_hdr s.module.vpt (some s.shared) =
        { magic := AU_MAGIC
          len := UInt32.ofNat x.frame.data.length
          flags := if x.frame.keyframe then AU_FLAG_KEYFRAME else 0
          seq := x.frame.id } ∧
      (UInt32.ofNat x.frame.data.length).toNat = x.frame.data.length ∧ 0 < x.frame.data.length ∧
      x.frame.data.length ≤ size := by
  have hcfg := hrep.cfg
  have hbytes := hrep.framebytes
  have hword := s.module.vpt.framebytes.toNat_lt
  have hframes : s.shared.queue.frames = x.frame :: rest.map Accepted.frame := by
    rw [hrep.frames_eq hinv, hwaiting, List.map_cons]
  have hx : s.accepted[f.front]? = some x := by
    rw [← List.head?_drop, ← hrep.waiting_eq hinv, hwaiting, List.head?_cons]
  obtain ⟨hid, hdata, hfits⟩ := hrep.ids _ _ hx
  have hcb : s.module.vpt.cb.capture_peek = true := by
    rw [hrep.cb]
    rfl
  obtain ⟨-, hhdr⟩ := polled_front hcb hframes (hid ▸ u32_ne_zero _) hdata (by omega)
  refine ⟨hhdr, ?_, List.length_pos_iff.mpr hdata, hfits⟩
  rw [UInt32.toNat_ofNat']
  exact Nat.mod_eq_of_lt (by omega)

/-- A turn's call of `vc_encode_begin`, and what it leaves. -/
def Pipeline.begins (s : Pipeline) (vc : vpt_codec) (r : Turn) (b : Begun) : Prop :=
  vc_encode_begin vc s.module.vpt (some s.shared) r.force_keyframe s.bridge r.packetize r.out_size r.output = .ok b

/-- The codec refuses an empty frame and leaves all as it was. This is the encode
    after a poll that found nothing. -/
theorem Represents.encode_empty (hrep : Represents size s f) (hinv : f.Inv) {vc : vpt_codec} (hopen : s.is_open = true)
    (hcodec : s.codec = some vc) (hheld : s.held = none) (r : Turn) :
    ∃ t b, s.step (.encode_begin r.force_keyframe r.packetize r.out_size r.output) = some t ∧
      s.begins vc r b ∧ b.encoded.vc = vc ∧ b.encoded.fate = .skipped ∧ Represents size t f ∧ t.is_open = true ∧
      t.shared = s.shared ∧ t.module = s.module ∧ t.codec = s.codec ∧ t.taken = s.taken ∧ t.log = s.log ∧
      t.accepted = s.accepted := by
  obtain ⟨_, hvc, hlen, -⟩ := hrep.codec hopen
  cases hcodec.symm.trans hvc
  have hbytes := hrep.framebytes
  obtain ⟨hsize, hcap⟩ := hrep.exact
  obtain ⟨b, hb, hbegin⟩ := vc_encode_begin_ok vc s.module.vpt s.bridge (by omega) (by omega) (some s.shared)
    r.force_keyframe r.packetize r.out_size r.output
  obtain ⟨t, hstep⟩ : ∃ t, s.step (.encode_begin r.force_keyframe r.packetize r.out_size r.output) = some t := by
    simp only [Pipeline.step, hcodec, hopen, Pipeline.encode_begin, hb]
    exact ⟨_, rfl⟩
  obtain ⟨f', hrep', -, hmove, haccepted, -, hopen'⟩ :=
    hrep.encode_begin hinv (by rw [hheld]; simp) hstep
  have hrefused : b.encoded.vc = vc ∧ b.encoded.fate = .skipped := by
    cases hbegin with
    | refused _ hfate hvc => exact ⟨hvc, hfate⟩
    | taken hdr hinput =>
      have hempty := hrep.empty hheld
      rw [← hinput.hdr_eq] at hempty
      exact absurd hempty hinput.len_ne_zero
  refine ⟨t, b, hstep, hb, hrefused.1, hrefused.2, ?_⟩
  cases hmove with
  | refused hshared hmodule hcodec' htaken hlog =>
    exact ⟨hrep', hopen', hshared, hmodule, hcodec', htaken, hlog, haccepted⟩
  | taken _ _ _ h _ _ hheld' =>
    rw [hrep.held, hheld] at hheld'
    cases hheld'

/-- The codec takes the frame of the front that was polled, unless it takes it
    for the frame taken last, and what comes of it is as `fate` says. -/
theorem Represents.encode_front (hrep : Represents size s f) (hinv : f.Inv) {vc : vpt_codec} (hopen : s.is_open = true)
    (hcodec : s.codec = some vc) {x : Accepted} {rest : List Accepted} (hwaiting : s.waiting = x :: rest)
    (hheld : s.held = some f.front) (hhdr : s.bridge.buf.hdr = polled_hdr s.module.vpt (some s.shared))
    (hlength : s.shared.queue.frames.length ≤ 2 ^ 31)
    (hnew : vc.enc_have_seq = true → x.frame.id ≠ vc.enc_last_seq) {r : Turn} (hout : r.out_size ≠ 0) :
    ∃ t f' b, s.step (.encode_begin r.force_keyframe r.packetize r.out_size r.output) = some t ∧
      s.begins vc r b ∧ au_frame s.bridge = x.frame ∧
      b.encoded.fate = fate (s.keyed vc) x.frame.keyframe (vc.refuses r.packetize x.frame.data) ∧
      Represents size t f' ∧ f'.Inv ∧ t.is_open = true ∧ t.codec = some b.encoded.vc ∧ b.encoded.vc.prm = vc.prm ∧
      b.encoded.vc.enc_single_nal = vc.enc_single_nal ∧ b.encoded.vc.enc_last_seq = x.frame.id ∧ t.waiting = rest ∧
      t.taken = s.taken ++ [x.frame] ∧ t.log = sent_entry b.encoded.fate x ++ s.log ∧
      t.keyed b.encoded.vc = b.encoded.fate.sent ∧ t.module.vpt.framebytes = s.module.vpt.framebytes := by
  have hbytes := hrep.framebytes
  obtain ⟨hsize, hcap⟩ := hrep.exact
  obtain ⟨hpolled, hcount, hpos, hfits⟩ := hrep.polled_hdr_eq hinv hwaiting
  have hdrop : s.accepted.drop f.front = x :: rest := by rw [← hrep.waiting_eq hinv, hwaiting]
  have hx : s.accepted[f.front]? = some x := by rw [← List.head?_drop, hdrop, List.head?_cons]
  have hframe : x.frame = au_frame s.bridge := by
    obtain ⟨a, ha, hframe⟩ := hrep.bridge _ hheld
    cases hx.symm.trans ha
    exact hframe
  have hkey : s.bridge.buf.hdr.key = x.frame.keyframe := by rw [hframe, au_frame]
  have hdata : s.bridge.buf.body.take s.bridge.buf.hdr.len.toNat = x.frame.data := by rw [hframe, au_frame]
  have hlen : s.bridge.buf.hdr.len.toNat = x.frame.data.length := by rw [hhdr, hpolled, hcount]
  have hnumber : s.held_number = x.number := by
    simp only [Pipeline.held_number, Pipeline.held_frame, hheld, Option.bind_some, hx, Option.elim_some]
  have hinput : encode_input vc s.bridge = .ok (some s.bridge.buf.hdr) := by
    apply encode_input_eq
    · omega
    · rw [hhdr, hpolled]
    · intro hzero
      rw [hzero] at hlen
      change 0 = _ at hlen
      omega
    · omega
    · intro hhave
      rw [hhdr, hpolled]
      exact hnew hhave
  obtain ⟨_, hvc, henc, -⟩ := hrep.codec hopen
  cases hcodec.symm.trans hvc
  obtain ⟨b, hb, -⟩ := vc_encode_begin_ok vc s.module.vpt s.bridge (by omega) (by omega) (some s.shared)
    r.force_keyframe r.packetize r.out_size r.output
  obtain ⟨hconsumed, hfate, hflag, hmode⟩ := vc_encode_begin_fate hinput hout hb
  rw [hkey, hdata, ← Pipeline.keyed] at hfate
  obtain ⟨t, hstep, htaken, hlog, hcodec'⟩ : ∃ t,
      s.step (.encode_begin r.force_keyframe r.packetize r.out_size r.output) = some t ∧
      t.taken = s.taken ++ [x.frame] ∧ t.log = sent_entry b.encoded.fate x ++ s.log ∧
      t.codec = some b.encoded.vc := by
    simp only [Pipeline.step, hcodec, hopen, Pipeline.encode_begin, hb, hconsumed, Option.isSome_some, if_true,
      hnumber, ← hframe]
    exact ⟨_, rfl, rfl, rfl, rfl⟩
  have hfresh : ∀ h ∈ s.held, s.accepted.length ≤ h + 2 ^ 31 := by
    intro h hh
    cases Option.mem_unique hheld hh
    have hqueued := hrep.length_frames
    omega
  obtain ⟨f', hrep', hinv', hmove, haccepted, -, hopen'⟩ := hrep.encode_begin hinv hfresh hstep
  cases hmove with
  | refused _ _ _ hsame =>
    have hlonger := congrArg List.length (htaken.symm.trans hsame)
    simp at hlonger
  | taken _ hvc' _ h a e hheld' ha _ _ hsent _ hvpt hcodec'' =>
    cases hcodec.symm.trans hvc'
    cases (hrep.held.trans hheld).symm.trans hheld'
    have hsame : b.encoded.vc = e.vc := Option.some.inj (hcodec'.symm.trans hcodec'')
    have hseq : b.encoded.vc.enc_last_seq = x.frame.id := by
      obtain ⟨_, hvc'', -, hknows⟩ := hrep'.codec hopen'
      cases hcodec'.symm.trans hvc''
      rw [(hknows rfl f.front rfl).2, (hrep.ids _ _ hx).1]
    obtain ⟨epoch, hkept⟩ := hsent.keeps.vpt
    refine ⟨t, _, b, hstep, hb, hframe.symm, hfate, hrep', hinv', hopen', hcodec', ?_, hmode, hseq, ?_, htaken, hlog,
      ?_, ?_⟩
    · rw [hsame]
      exact hsent.keeps.prm
    · rw [hrep'.waiting_eq hinv', hinv.front_take (hrep.held.trans hheld), if_pos rfl, haccepted, ← List.tail_drop,
        hdrop, List.tail_cons]
    · rw [Pipeline.keyed, sent_key, hsame, hsent.enc_epoch, hvpt, hkept, if_neg (fun hne => hne rfl), ← hsame, hflag]
    · rw [hvpt, hkept]

/-- The ids of frames accepted one after the other differ, so that the codec does
    not take the second one for a repetition of the first. -/
theorem Represents.next_ne (hrep : Represents size s f) (hinv : f.Inv) {x y : Accepted} {rest : List Accepted}
    (hwaiting : s.waiting = x :: y :: rest) : y.frame.id ≠ x.frame.id := by
  have hdrop : s.accepted.drop f.front = x :: y :: rest := by rw [← hrep.waiting_eq hinv, hwaiting]
  have hx : s.accepted[f.front]? = some x := by rw [← List.head?_drop, hdrop, List.head?_cons]
  have hy : s.accepted[f.front + 1]? = some y := by
    rw [← List.head?_drop, ← List.tail_drop, hdrop, List.tail_cons, List.head?_cons]
  rw [(hrep.ids _ _ hx).1, (hrep.ids _ _ hy).1]
  exact u32_ne_of_lt (Nat.lt_succ_self _) (by omega)

/-- What one turn does: take the front, if there is one. -/
structure Turned (size : Nat) (s : Pipeline) (vc : vpt_codec) (r : Turn) (u : Pipeline) (b : Begun) (t : Pipeline) :
    Prop where
  polled : s.step (.poll r.buf) = some u
  codec : u.codec = some vc
  begins : u.begins vc r b
  begun : u.step (.encode_begin r.force_keyframe r.packetize r.out_size r.output) = some t
  ready : Ready size t b.encoded.vc
  prm : b.encoded.vc.prm = vc.prm
  enc_single_nal : b.encoded.vc.enc_single_nal = vc.enc_single_nal
  framebytes : t.module.vpt.framebytes = s.module.vpt.framebytes
  waiting : t.waiting = s.waiting.tail
  taken : t.taken = s.taken ++ (s.waiting.take 1).map Accepted.frame
  empty : s.waiting = [] → b.encoded.fate = .skipped ∧ t.log = s.log ∧ t.keyed b.encoded.vc = s.keyed vc
  front : ∀ x ∈ s.waiting.head?, au_frame u.bridge = x.frame ∧
    b.encoded.fate = fate (s.keyed vc) x.frame.keyframe (vc.refuses r.packetize x.frame.data) ∧
    t.log = sent_entry b.encoded.fate x ++ s.log ∧ t.keyed b.encoded.vc = b.encoded.fate.sent

/-- Of the module state only the size of the buffer counts. -/
theorem Turn.Fits.congr {r : Turn} {vpt vpt' : vpt_state} (hturn : r.Fits vpt)
    (hbytes : vpt'.framebytes = vpt.framebytes) : r.Fits vpt' where
  exact := by
    rw [pjmedia_frame.Exact, hbytes]
    exact hturn.exact
  room := hturn.room

/-- What a turn adds to the history comes before what the turns after it add. So the
    history of many turns is put together from that of one, by induction on the
    turns. -/
theorem Turned.sent {vc : vpt_codec} {r : Turn} {u : Pipeline} {b : Begun} (hturned : Turned size s vc r u b t)
    (turns : List Turn) :
    sent_entries vc (t.keyed b.encoded.vc) (turns.zip t.waiting) ++ t.log =
      sent_entries vc (s.keyed vc) ((r :: turns).zip s.waiting) ++ s.log := by
  rw [hturned.waiting]
  cases hw : s.waiting with
  | nil =>
    obtain ⟨-, hlog, hkeyed⟩ := hturned.empty hw
    rw [hlog, hkeyed, List.tail_nil, List.zip_nil_right, List.zip_nil_right]
  | cons x rest =>
    obtain ⟨-, hfate, hlog, hkeyed⟩ := hturned.front x (by rw [hw]; rfl)
    rw [hlog, hkeyed, hfate, ← List.append_assoc]
    rfl

/-- A turn can always be taken: the poll and the encode go through, whatever the
    packetizer makes of the frame. -/
theorem Ready.turn {vc : vpt_codec} (hready : Ready size s vc) {r : Turn} (hturn : r.Fits s.module.vpt) :
    ∃ u b t, Turned size s vc r u b t := by
  obtain ⟨f, hrep, hinv⟩ := hready.represents
  obtain ⟨u, hpoll, hhdr⟩ := hrep.polls hturn.exact
  obtain ⟨hrep', hshared, hmodule, hcodec, hopen, haccepted, hlog, -⟩ := hrep.poll hinv hturn.exact hpoll
  have htaken : u.taken = s.taken := by
    rw [hrep'.taken, hrep.taken]
    rfl
  have hwaiting : u.waiting = s.waiting := by rw [Pipeline.waiting, Pipeline.waiting, haccepted, hshared]
  have hkeyed : u.keyed vc = s.keyed vc := by rw [Pipeline.keyed, Pipeline.keyed, hmodule]
  have hqueued := hrep.length_frames
  have hfront := hrep.accepted ▸ hinv.front
  cases hw : s.waiting with
  | nil =>
    have hend : s.accepted.length ≤ f.front := by
      rw [← List.drop_eq_nil_iff, ← hrep.waiting_eq hinv, hw]
    have hheld : u.held = none := by
      rw [← hrep'.held, Feed.peek, if_neg (by rw [hrep.accepted]; omega)]
    obtain ⟨t, b, hstep, hb, hvc', hfate, hrep'', hopen', hshared', hmodule', hcodec', htaken', hlog', haccepted'⟩ :=
      hrep'.encode_empty hinv.peek (hopen.trans hready.is_open) (hcodec.trans hready.codec) hheld r
    have hsame : t.waiting = s.waiting := by
      rw [← hwaiting, Pipeline.waiting, Pipeline.waiting, haccepted', hshared']
    refine ⟨u, b, t, hpoll, hcodec.trans hready.codec, hb, hstep, ⟨⟨_, hrep'', hinv.peek⟩, hopen', ?_, ?_, ?_⟩,
      by rw [hvc'], by rw [hvc'], ?_, ?_, ?_, ?_, ?_⟩
    · rw [hcodec', hcodec, hready.codec, hvc']
    · rw [hshared', hshared]
      exact hready.length
    · rw [hshared', hshared, hvc']
      exact hready.front
    · rw [hmodule', hmodule]
    · rw [hsame, hw]
      rfl
    · rw [htaken', htaken, hw]
      exact (List.append_nil _).symm
    · intro _
      refine ⟨hfate, hlog'.trans hlog, ?_⟩
      rw [hvc', ← hkeyed, Pipeline.keyed, Pipeline.keyed, hmodule']
    · rw [hw]
      intro x hx
      cases hx
  | cons x rest =>
    have hframes := hrep.frames_eq hinv
    rw [hw, List.map_cons] at hframes
    have hlt : f.front < s.accepted.length := by
      by_contra hend
      rw [hrep.waiting_eq hinv, List.drop_eq_nil_iff.mpr (by omega)] at hw
      cases hw
    have hheld : u.held = some f.front := by
      rw [← hrep'.held, Feed.peek, if_pos (by rw [hrep.accepted]; exact hlt)]
    have hnew : vc.enc_have_seq = true → x.frame.id ≠ vc.enc_last_seq := by
      apply hready.front
      rw [hframes]
      rfl
    obtain ⟨t, f', b, hstep, hb, hframe, hfate, hrep'', hinv'', hopen', hcodec', hprm, hmode, hseq, hrest, htaken', hlog',
      hkeyed', hbytes'⟩ := hrep'.encode_front hinv.peek (hopen.trans hready.is_open) (hcodec.trans hready.codec)
        (hwaiting.trans hw) hheld (by rw [hhdr, hmodule, hshared]) (by rw [hshared]; exact hready.length) hnew hturn.room
    rw [hkeyed] at hfate
    rw [hlog] at hlog'
    have hframes' := hrep''.frames_eq hinv''
    refine ⟨u, b, t, hpoll, hcodec.trans hready.codec, hb, hstep, ⟨⟨f', hrep'', hinv''⟩, hopen', hcodec', ?_, ?_⟩,
      hprm, hmode, ?_, ?_, ?_, ?_, ?_⟩
    · have hlen := hready.length
      rw [hframes, List.length_cons, List.length_map] at hlen
      rw [hframes', hrest, List.length_map]
      omega
    · intro q hq _
      rw [hframes', hrest] at hq
      cases rest with
      | nil => cases hq
      | cons y rest =>
        cases hq
        rw [hseq]
        exact hrep.next_ne hinv hw
    · rw [hbytes', hmodule]
    · rw [hrest, hw, List.tail_cons]
    · rw [htaken', htaken, hw]
      rfl
    · rw [hw]
      intro hnil
      cases hnil
    · intro y hy
      rw [hw] at hy
      cases hy
      exact ⟨hframe, hfate, hlog', hkeyed'⟩

/-- Any number of turns take as many frames from the front of the queue as there
    are, in order. -/
theorem Ready.turns {vc : vpt_codec} (hready : Ready size s vc) (turns : List Turn)
    (hturns : ∀ r ∈ turns, r.Fits s.module.vpt) (config : PassthroughConfig) (module : Module) :
    ∃ t vc', (pipeline config module).exec s (turns.flatMap Turn.ops) = some t ∧ Ready size t vc' ∧
      t.waiting = s.waiting.drop turns.length ∧
      t.taken = s.taken ++ (s.waiting.take turns.length).map Accepted.frame ∧
      t.log = sent_entries vc (s.keyed vc) (turns.zip s.waiting) ++ s.log := by
  induction turns generalizing s vc with
  | nil =>
    refine ⟨s, vc, rfl, hready, rfl, ?_, rfl⟩
    rw [List.length_nil, List.take_zero, List.map_nil, List.append_nil]
  | cons r turns ih =>
    obtain ⟨v, b, u, hturned⟩ := hready.turn (hturns r List.mem_cons_self)
    obtain ⟨t, vc'', hexec, hready', hwaiting, htaken, hlog⟩ := ih hturned.ready fun r' hr' =>
      (hturns r' (List.mem_cons_of_mem _ hr')).congr hturned.framebytes
    refine ⟨t, vc'', ?_, hready', ?_, ?_, ?_⟩
    · have hfirst : (pipeline config module).step s (.poll r.buf) = some v := hturned.polled
      have hsecond : (pipeline config module).step v
          (.encode_begin r.force_keyframe r.packetize r.out_size r.output) = some u := hturned.begun
      rw [List.flatMap_cons, Turn.ops, List.cons_append, List.cons_append, List.nil_append, Machine.exec_cons, hfirst,
        Option.bind_some, Machine.exec_cons, hsecond, Option.bind_some, hexec]
    · rw [hwaiting, hturned.waiting, List.drop_tail, List.length_cons]
    · rw [htaken, hturned.taken, hturned.waiting, List.append_assoc, ← List.map_append, ← List.drop_one,
        ← List.take_add, Nat.add_comm, List.length_cons]
    · rw [hlog, sent_entries_congr hturned.prm hturned.enc_single_nal, hturned.sent]

end

/-- From every state of a run in which the codec is open, turns of the stream
    take the queued frames one by one, in order, until none is left; each is
    handed over, dropped or left out as the flag of the codec, its own keyframe
    flag and the packetizer say. Where the packetizer takes them all, what is
    handed over is all from the first keyframe on. The run may push, poll and
    encode in any order before, as long as its steps are `Fresh`. The queue holds
    at most `2 ^ 31` frames, and the front does not have the id of the frame taken
    last. Nothing is assumed of the packetizer, which may differ in every turn. -/
theorem queue_drained {config : PassthroughConfig} {module : Module} (hinstalled : Installed config module)
    {s : Pipeline} (hreach : (pipeline config module).Reach Fresh s) {vc : vpt_codec} (hopen : s.is_open = true)
    (hcodec : s.codec = some vc) (hlength : s.shared.queue.frames.length ≤ 2 ^ 31)
    (hfront : ∀ q ∈ s.shared.queue.frames.head?, vc.enc_have_seq = true → q.id ≠ vc.enc_last_seq)
    (turns : List Turn) (hturns : ∀ r ∈ turns, r.Fits s.module.vpt) :
    s.shared.queue.frames = s.waiting.map Accepted.frame ∧
      ∃ t, (pipeline config module).exec s (turns.flatMap Turn.ops) = some t ∧
        t.shared.queue.frames = s.shared.queue.frames.drop turns.length ∧
        t.taken = s.taken ++ s.shared.queue.frames.take turns.length ∧
        t.log = sent_entries vc (s.keyed vc) (turns.zip s.waiting) ++ s.log ∧
        ((∀ p ∈ turns.zip s.waiting, vc.refuses p.1.packetize p.2.frame.data = false) →
          t.log = ((((s.waiting.take turns.length).dropWhile fun x => !s.keyed vc && !x.frame.keyframe).map
            Sent.handed).reverse) ++ s.log) := by
  have hready := Ready.of_reach hinstalled hreach hopen hcodec hlength hfront
  obtain ⟨t, vc', hexec, hready', hwaiting, htaken, hlog⟩ := hready.turns turns hturns config module
  have hframes := hready.frames_eq
  refine ⟨hframes, t, hexec, ?_, ?_, hlog, fun haccepts => ?_⟩
  · rw [hready'.frames_eq, hwaiting, hframes, List.map_drop]
  · rw [htaken, hframes, List.map_take]
  · rw [hlog, sent_entries_of_accepts haccepts, map_snd_zip_eq_take]

/-- Two frames are queued for an open codec, the first of them a keyframe. -/
def two_queued : List PipelineOp :=
  [.alloc, .open sendrecv_param mode_1, .push_frame [0] true, .push_frame [1] false]

/-- A turn whose packetizer makes one packet of the access unit. -/
def whole_turn : Turn where
  buf := .zero 17
  force_keyframe := false
  packetize := whole
  out_size := 1400
  output := {}

theorem two_queued_admitted :
    (pipeline small_config small_module).Admits Fresh (pipeline small_config small_module).start two_queued :=
  .cons rfl trivial <| .cons rfl trivial <| .cons rfl trivial <| .cons rfl trivial trivial

/-- Two turns send them both, to a packetizer that makes one packet of each. -/
theorem queue_drained_two :
    ∃ s t, (pipeline small_config small_module).exec (pipeline small_config small_module).start two_queued = some s ∧
      (pipeline small_config small_module).exec s ([whole_turn, whole_turn].flatMap Turn.ops) = some t ∧
      t.shared.queue.frames = [] ∧ t.taken = s.shared.queue.frames := by
  obtain ⟨-, t, hexec, hframes, htaken, -⟩ := queue_drained small_installed
    (Machine.Reach.exec .start two_queued_admitted rfl) rfl rfl (by decide) (fun q hq => by cases hq; decide)
    [whole_turn, whole_turn] (fun r hr => by simp at hr; subst hr; exact ⟨⟨rfl, rfl⟩, by decide⟩)
  exact ⟨_, t, rfl, hexec, hframes, htaken⟩

end pjsua_rust.sending
