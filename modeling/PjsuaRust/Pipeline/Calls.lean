import PjsuaRust.Pipeline.Represents

open pjsua_rust.video pjsua_rust.video_passthrough transition feeds serial

namespace pjsua_rust.sending

variable {size : Nat} {s t : Pipeline} {f : Feed Accepted}

/-- What a codec knows of the feed is in two fields and a buffer; the rest of it may
    change. -/
theorem CodecKnows.keep {vc vc' : vpt_codec} (hknows : CodecKnows size (some vc) f)
    (henc : vc'.enc_buf.length = vc.enc_buf.length) (hlast : vc'.enc_last_seq = vc.enc_last_seq)
    (hhave : vc'.enc_have_seq = vc.enc_have_seq) : CodecKnows size (some vc') f := by
  obtain ⟨_, heq, hlen, hseq⟩ := hknows
  cases heq
  refine ⟨vc', rfl, henc.trans hlen, fun hfresh t ht => ?_⟩
  rw [hlast, hhave]
  exact hseq hfresh t ht

theorem SameSizes.of_epochs {vpt vpt' : vpt_state} (source keyed : UInt32)
    (hvpt : vpt' = { vpt with source_epoch := source, keyed_epoch := keyed }) : SameSizes vpt vpt' := by
  subst hvpt
  exact ⟨rfl, rfl, rfl⟩

section

variable (hrep : Represents size s f)
include hrep

/-- `clear` drops all that is queued, and nothing else of the feed changes: the
    codec goes by the frame it took last, and the bridge still holds its copy. -/
theorem Represents.clear (hstep : s.step .clear = some t) :
    Represents size t (f.drop f.accepted.length) := by
  obtain ⟨epoch, hvpt⟩ := pjrs_vpt_source_restarted_eq s.module.vpt
  cases hstep
  refine hrep.keep (.of_epochs epoch s.module.vpt.keyed_epoch hvpt) ⟨rfl, rfl⟩ rfl rfl rfl ⟨rfl, rfl⟩
    ?_ hrep.codec hrep.taken
  rw [Feed.drop, hrep.accepted, List.drop_length]
  rfl

/-- A reconfiguration is no step of the feed, whether it succeeds or not: the queue,
    the codec and the copy stay, and so do the sizes. -/
theorem Represents.reconfigure {config : PassthroughConfig} {out : ReconfigureOutcome}
    (hstep : s.step (.reconfigure config out) = some t) :
    Represents size t f ∧ t.shared.queue = s.shared.queue := by
  obtain ⟨hqueue, hmax, hcfg, cfg, hvpt⟩ := VideoPassthrough.reconfigure_sizes s.shared s.module config out
  cases Pipeline.step_inv hstep with
  | @reconfigure _ _ shared module hreconfigure =>
    simp only [hreconfigure] at hqueue hmax hcfg hvpt
    have hsame : module.vpt.cb = s.module.vpt.cb ∧ module.vpt.framebytes = s.module.vpt.framebytes := by
      rcases hvpt with heq | heq <;> rw [heq] <;> exact ⟨rfl, rfl⟩
    exact ⟨hrep.keep_queue ⟨hsame.1, hcfg, hsame.2⟩ ⟨hmax, hqueue⟩ rfl rfl rfl hrep.codec rfl, hqueue⟩

/-- A change of the bit rates is no step of the feed. -/
theorem Represents.modify {avg_bps max_bps : UInt32}
    (hstep : s.step (.modify avg_bps max_bps) = some t) : Represents size t f := by
  cases Pipeline.step_inv hstep with
  | modify hcodec hopen =>
    have hknows := hcodec ▸ hrep.codec hopen
    refine hrep.keep_queue (.refl _) ⟨rfl, rfl⟩ rfl rfl rfl (fun _ => ?_) rfl
    unfold vc_modify
    split
    · exact hknows
    · exact hknows.keep rfl rfl rfl

/-- An open makes the codec forget which frame it took last. The copy in the bridge
    stays, so that its frame may be taken a second time. -/
theorem Represents.open {param : pjmedia_vid_codec_param} {out : OpenOutcome}
    (hstep : s.step (.open param out) = some t) : Represents size t f.restart := by
  cases Pipeline.step_inv hstep with
  | @«open» _ _ _ vc' status _ _ _ hopened =>
    refine hrep.keep (.refl _) ⟨rfl, rfl⟩ rfl rfl rfl ⟨rfl, rfl⟩ hrep.frames (fun hsuccess => ?_) rfl
    have hstatus : status = .PJ_SUCCESS := by simpa using hsuccess
    subst hstatus
    refine ⟨vc', rfl, (vc_open_sized hopened).enc_buf.trans hrep.cfg, ?_⟩
    simp [Feed.restart]

/-- Further packets of an access unit are no step of the feed: they neither look at
    the queue nor at the copy. -/
theorem Represents.encode_more {packetize : Packetizer} {out_size : Nat} {output : Output}
    (hstep : s.step (.encode_more packetize out_size output) = some t) :
    Represents size t f ∧ t.shared = s.shared := by
  cases Pipeline.step_inv hstep with
  | @encode_more _ _ _ vc hcodec hopen =>
    have hknows := hcodec ▸ hrep.codec hopen
    have hkeeps := (vc_encode_more_cases vc s.module.vpt packetize out_size output).1
    obtain ⟨epoch, hvpt⟩ := hkeeps.vpt
    refine ⟨hrep.keep_queue ?_ ⟨rfl, rfl⟩ rfl rfl rfl (fun _ => ?_) rfl, rfl⟩
    · exact .of_epochs s.module.vpt.source_epoch epoch hvpt
    · exact hknows.keep hkeeps.enc_buf hkeeps.enc_last_seq hkeeps.enc_have_seq

/-- A poll leaves a whole copy of the front in the bridge, or nothing. The buffer is
    as large as the device says, so that every frame that was accepted fits; the
    queue and the codec are not touched. -/
theorem Represents.poll (hinv : f.Inv) {buf : pjmedia_frame} (hexact : buf.Exact s.module.vpt)
    (hstep : s.step (.poll buf) = some t) :
    Represents size t f.peek ∧ t.shared = s.shared ∧ t.module = s.module ∧ t.codec = s.codec ∧
      t.is_open = s.is_open ∧ t.accepted = s.accepted ∧ t.log = s.log ∧ t.pushed = s.pushed := by
  have hcfg := hrep.cfg
  have hbytes := hrep.framebytes
  have hfront := hrep.accepted ▸ hinv.front
  have hlen := hrep.length_frames
  have hids := hrep.ids
  obtain ⟨hsize, hcap⟩ := hexact
  obtain ⟨r, hr, hpolled⟩ := vd_get_frame_ok s.module.vpt buf (by omega) (by omega)
    (some s.shared) s.strm
  obtain ⟨hrsize, hrcap, hrhdr, hrbody⟩ := hpolled (by omega)
  simp only [Pipeline.step, Pipeline.poll, hr, Option.some.injEq] at hstep
  subst hstep
  refine ⟨?_, rfl, rfl, rfl, rfl, rfl, rfl, rfl⟩
  have hbridge : r.2.2.Exact s.module.vpt := ⟨hrsize, hrcap.trans hcap⟩
  cases hdrop : s.accepted.drop f.front with
  | nil =>
    have hframes : s.shared.queue.frames = [] := by rw [hrep.frames, hdrop, List.map_nil]
    have hempty : r.2.2.buf.hdr.len = 0 := by rw [hrhdr, polled_empty hframes]
    have hend := List.drop_eq_nil_iff.mp hdrop
    refine ⟨hrep.cb, hcfg, hbytes, hrep.max_frame_size, hrep.accepted, hids, hrep.next_id, hrep.frames,
      ?_, hbridge, fun _ => hempty, ?_, hrep.codec, hrep.taken⟩
    · rw [if_pos hempty, Feed.peek, if_neg (by rw [hrep.accepted]; omega)]
    · rw [if_pos hempty]
      simp
  | cons a rest =>
    have ha : s.accepted[f.front]? = some a := by rw [← List.head?_drop, hdrop, List.head?_cons]
    have hlt := (List.getElem?_eq_some_iff.mp ha).1
    obtain ⟨hid, hdata, hfits⟩ := hids f.front a ha
    have hframes : s.shared.queue.frames = a.frame :: rest.map Accepted.frame := by
      rw [hrep.frames, hdrop, List.map_cons]
    have hcb : s.module.vpt.cb.capture_peek = true := by rw [hrep.cb]; rfl
    obtain ⟨hpeeked, hhdr⟩ := polled_front hcb hframes (hid ▸ u32_ne_zero _) hdata (by omega)
    rw [hhdr] at hrhdr
    rw [hpeeked] at hrbody
    have hword := s.module.vpt.framebytes.toNat_lt
    have hcount : (UInt32.ofNat a.frame.data.length).toNat = a.frame.data.length := by
      simpa using Nat.mod_eq_of_lt (show a.frame.data.length < 2 ^ 32 by omega)
    have hne : r.2.2.buf.hdr.len ≠ 0 := by
      intro hzero
      rw [hrhdr] at hzero
      have hnat := congrArg UInt32.toNat hzero
      rw [hcount] at hnat
      exact hdata (List.length_eq_zero_iff.mp hnat)
    have hplace : s.accepted.length - s.shared.queue.frames.length = f.front := by omega
    refine ⟨hrep.cb, hcfg, hbytes, hrep.max_frame_size, hrep.accepted, hids, hrep.next_id, hrep.frames,
      ?_, hbridge, ?_, ?_, hrep.codec, hrep.taken⟩
    · rw [if_neg hne, Feed.peek, if_pos (by rw [hrep.accepted]; exact hlt), hplace]
    · rw [if_neg hne]
      simp
    · rw [if_neg hne, hplace]
      intro h hh
      cases hh
      refine ⟨a, ha, ?_⟩
      have hkey : r.2.2.buf.hdr.key = a.frame.keyframe := au_hdr.key_eq (by rw [hrhdr])
      have hseq : r.2.2.buf.hdr.seq = a.frame.id := by rw [hrhdr]
      have hcount' : r.2.2.buf.hdr.len.toNat = a.frame.data.length := by rw [hrhdr, hcount]
      simp only [au_frame, hkey, hseq, hcount', hrbody]

/-- Everything one `vc_encode_begin` does: nothing, or take the frame in the
    bridge, of which the queue keeps what is newer. -/
inductive EncodeMove (s : Pipeline) (f : Feed Accepted) (t : Pipeline) : Feed Accepted → Prop where
  | refused (hshared : t.shared = s.shared) (hmodule : t.module = s.module) (hcodec : t.codec = s.codec)
      (htaken : t.taken = s.taken) (hlog : t.log = s.log) : EncodeMove s f t f
  | taken (vc : vpt_codec) (hvc : s.codec = some vc) (hdr : au_hdr) (h : Nat) (a : Accepted) (e : Encoded)
      (hheld : f.held = some h) (ha : f.accepted[h]? = some a)
      (hnew : f.fresh = true ∨ f.last ≠ some h) (hkey : hdr.key = a.frame.keyframe)
      (hsent : EncodeSent (encode_take vc hdr) s.module.vpt hdr s.module.vpt.source_epoch
        (s.module.vpt.keyed_epoch == s.module.vpt.source_epoch) e)
      (hqueue : t.shared.queue = s.shared.queue ∨
        ∃ rest, s.shared.queue.frames = a.frame :: rest ∧
          t.shared.queue = { s.shared.queue with frames := rest })
      (hvpt : t.module.vpt = e.vpt) (hcodec : t.codec = some e.vc)
      (htaken : t.taken = s.taken ++ [a.frame]) (hlog : t.log = sent_entry e.fate a ++ s.log) :
      EncodeMove s f t (f.take h a)

/-- The copy's id removes the front where the copy is of the front, and nothing
    where the queue has moved on, given that the ids in play compare as they
    should. -/
theorem Represents.consume (hinv : f.Inv) {h : Nat} {a : Accepted} (hheld : f.held = some h)
    (ha : s.accepted[h]? = some a) (hfresh : s.accepted.length ≤ h + 2 ^ 31) :
    (s.shared.queue.consume_through a.frame.id).frames =
        (s.accepted.drop (f.take h a).front).map Accepted.frame ∧
      (s.shared.queue.consume_through a.frame.id = s.shared.queue ∨
        ∃ rest, s.shared.queue.frames = a.frame :: rest ∧
          s.shared.queue.consume_through a.frame.id = { s.shared.queue with frames := rest }) := by
  obtain ⟨hlt, hle⟩ := hinv.held h hheld
  have hid := (hrep.ids h a ha).1
  rw [hinv.front_take hheld]
  -- The id of a frame accepted later is newer.
  have hnewer {i : Nat} {b : Accepted} (hb : s.accepted[i]? = some b) (hi : h < i) :
      ¬ 0 ≤ (a.frame.id - b.frame.id).toInt32 := by
    obtain ⟨d, rfl⟩ := Nat.exists_eq_add_of_lt hi
    have hb' := (List.getElem?_eq_some_iff.mp hb).1
    rw [hid, (hrep.ids _ b hb).1]
    exact not_zero_le_u32_sub h (d := d + 1) (by omega) (by omega)
  have hhead (i : Nat) (hi : h < i) :
      ∀ q ∈ ((s.accepted.drop i).map Accepted.frame).head?, ¬ 0 ≤ (a.frame.id - q.id).toInt32 := by
    intro q hq
    rw [List.head?_map, List.head?_drop] at hq
    obtain ⟨b, hb, rfl⟩ := Option.map_eq_some_iff.mp hq
    exact hnewer hb hi
  by_cases hfront : h = f.front
  · have hdrop : s.accepted.drop f.front = a :: s.accepted.drop (f.front + 1) := by
      obtain ⟨hlen, hget⟩ := List.getElem?_eq_some_iff.mp ha
      subst hfront
      rw [List.drop_eq_getElem_cons hlen, hget]
    have hframes : s.shared.queue.frames = a.frame :: (s.accepted.drop (f.front + 1)).map Accepted.frame := by
      rw [hrep.frames, hdrop, List.map_cons]
    have hconsume := Queue.consume_through_front hframes (hhead _ (by omega))
    rw [if_pos hfront, hconsume]
    exact ⟨rfl, .inr ⟨_, hframes, rfl⟩⟩
  · have hconsume : s.shared.queue.consume_through a.frame.id = s.shared.queue := by
      refine Queue.consume_through_of_newer ?_
      rw [hrep.frames]
      exact hhead f.front (by omega)
    rw [if_neg hfront, hconsume]
    exact ⟨hrep.frames, .inl rfl⟩

/-- An encode takes the held frame out of the feed, or is no step of it where the
    codec knows the frame already. The bound on the accepted frames makes the id of
    the copy tell whether its frame is still queued. -/
theorem Represents.encode_begin (hinv : f.Inv) {force_keyframe : Bool} {packetize : Packetizer}
    {out_size : Nat} {output : Output}
    (hfresh : ∀ h ∈ s.held, s.accepted.length ≤ h + 2 ^ 31)
    (hstep : s.step (.encode_begin force_keyframe packetize out_size output) = some t) :
    ∃ f', Represents size t f' ∧ f'.Inv ∧ EncodeMove s f t f' ∧ t.accepted = s.accepted ∧
      t.pushed = s.pushed ∧ t.is_open = true := by
  obtain ⟨vc, hcodec, hopen, hencode⟩ := Pipeline.encode_begin_inv hstep
  obtain ⟨_, hvc, hlen, hseq⟩ := hrep.codec hopen
  cases hcodec.symm.trans hvc
  have hbytes := hrep.framebytes
  obtain ⟨hsize, hcap⟩ := hrep.exact
  obtain ⟨b, hb, hbegin⟩ := vc_encode_begin_ok vc s.module.vpt s.bridge
    (by omega) (by omega) (some s.shared) force_keyframe packetize out_size output
  simp only [Pipeline.encode_begin, hb, Option.some.injEq] at hencode
  subst hencode
  cases hbegin with
  | refused hconsumed hfate hvc' hvpt hslot =>
    have htaken : s.taken ++ (if b.consumed.isSome = true then [au_frame s.bridge] else []) = s.taken := by
      rw [hconsumed]
      exact List.append_nil _
    refine ⟨f, ?_, hinv, .refused ?_ ?_ ?_ htaken ?_, rfl, rfl, hopen⟩
    · refine hrep.keep_queue (hvpt ▸ .refl _) (by rw [hslot]; exact ⟨rfl, rfl⟩) rfl rfl rfl (fun _ => ?_) htaken
      rw [hvc']
      exact hcodec ▸ hrep.codec hopen
    · rw [hslot]
      rfl
    · rw [hvpt]
    · rw [hvc', hcodec]
    · rw [hfate]
      rfl
  | taken hdr hinput hconsumed hslot hsent =>
    cases hh : s.held with
    | none =>
      have hempty := hrep.empty hh
      rw [← hinput.hdr_eq] at hempty
      exact absurd hempty hinput.len_ne_zero
    | some h =>
      obtain ⟨a, ha, hframe⟩ := hrep.bridge h hh
      have hheld : f.held = some h := hrep.held.trans hh
      have haccepted : f.accepted[h]? = some a := by rw [hrep.accepted, ha]
      have hid : hdr.seq = a.frame.id := by rw [hframe, hinput.hdr_eq, au_frame]
      have hkey : hdr.key = a.frame.keyframe := by rw [hframe, hinput.hdr_eq, au_frame]
      have hplace : a.frame.id = u32 h := (hrep.ids h a ha).1
      have hnew : f.fresh = true ∨ f.last ≠ some h := by
        cases hf : f.fresh with
        | true => exact .inl rfl
        | false =>
          refine .inr fun hlast => ?_
          obtain ⟨hhave, hlastseq⟩ := hseq hf h hlast
          exact hinput.fresh hhave (by rw [hid, hplace, hlastseq])
      obtain ⟨hframes, hqueue⟩ := hrep.consume hinv hheld ha (hfresh h hh)
      have hshared : b.slot.getD s.shared = capture_consumed s.shared a.frame.id := by
        rw [hslot, hrep.cb, hid]
        rfl
      have hnumber : s.held_number = a.number := by
        simp only [Pipeline.held_number, Pipeline.held_frame, hh, Option.bind_some, ha, Option.elim_some]
      have htaken : s.taken ++ (if b.consumed.isSome = true then [au_frame s.bridge] else []) =
          s.taken ++ [a.frame] := by
        rw [hconsumed, hframe]
        rfl
      obtain ⟨epoch, hvpt⟩ := hsent.keeps.vpt
      refine ⟨f.take h a, ?_, hinv.take hheld haccepted hnew, ?_, rfl, rfl, hopen⟩
      · refine hrep.keep (.of_epochs s.module.vpt.source_epoch epoch hvpt) ?_ rfl hh.symm rfl
          ⟨rfl, rfl⟩ ?_ (fun _ => ?_) ?_
        · rw [hshared]
          exact ⟨rfl, rfl⟩
        · rw [hshared]
          exact hframes
        · refine ⟨b.encoded.vc, rfl, hsent.keeps.enc_buf.trans hlen, fun _ t ht => ?_⟩
          cases ht
          exact ⟨hsent.keeps.enc_have_seq, hsent.keeps.enc_last_seq.trans (hid.trans hplace)⟩
        · rw [htaken, hrep.taken, Feed.take, List.map_append, List.map_singleton]
      · refine .taken vc hcodec hdr h a b.encoded hheld haccepted hnew hkey hsent ?_ rfl rfl htaken ?_
        · rw [hshared]
          exact hqueue
        · rw [hnumber, ← hframe]

end

end pjsua_rust.sending
