import PjsuaRust.Passthrough.Encode
import PjsuaRust.Video.Callbacks

open pjsua_rust.video

namespace pjsua_rust.video_passthrough

/-- What one `vc_encode_begin` leaves: the codec, the module and the output, the
    state behind the callbacks, and the header passed to `capture_consumed`. -/
structure Begun where
  encoded : Encoded
  slot : Option Shared
  consumed : Option au_hdr

/-- `vc_encode_begin` with nothing between its steps. -/
def vc_encode_begin (vc : vpt_codec) (vpt : vpt_state) (slot : Option Shared) (force_keyframe : Bool)
    (input : pjmedia_frame) (packetize : Packetizer) (out_size : Nat) (output : Output) :
    Except Fault Begun := do
  if out_size = 0 then
    return { encoded := einval vc vpt output, slot, consumed := none }
  let requests := if force_keyframe then request_keyframe vpt else []
  match ← encode_input vc input with
  | none =>
    let e := no_output vc vpt output input
    return { encoded := { e with callbacks := requests ++ e.callbacks }, slot, consumed := none }
  | some hdr =>
    let vc := encode_take vc hdr
    let slot := if vpt.cb.capture_consumed then slot.map (capture_consumed · hdr.seq) else slot
    let (epoch, keyed) := read_epochs vpt
    let e ← encode_send vc vpt input hdr epoch keyed packetize out_size output
    return { encoded := { e with callbacks := requests ++ e.callbacks }, slot, consumed := some hdr }

/-- Whether the header says keyframe. -/
def au_hdr.key (hdr : au_hdr) : Bool := hdr.flags &&& AU_FLAG_KEYFRAME != 0

theorem au_hdr.key_eq {hdr : au_hdr} {keyframe : Bool}
    (hflags : hdr.flags = if keyframe then AU_FLAG_KEYFRAME else 0) : hdr.key = keyframe := by
  rw [au_hdr.key, hflags]
  cases keyframe <;> decide

/-- The flag `enc_sent_key` once the epochs are read. -/
def sent_key (vc : vpt_codec) (epoch : UInt32) (keyed : Bool) : Bool :=
  if vc.enc_epoch ≠ epoch then keyed else vc.enc_sent_key

/-- What a call that encodes leaves as it was. -/
structure EncodeKeeps (vc vc' : vpt_codec) (vpt vpt' : vpt_state) : Prop where
  prm : vc'.prm = vc.prm
  enc_last_seq : vc'.enc_last_seq = vc.enc_last_seq
  enc_have_seq : vc'.enc_have_seq = vc.enc_have_seq
  enc_buf : vc'.enc_buf.length = vc.enc_buf.length
  dec_buf : vc'.dec_buf = vc.dec_buf
  dec_buf_size : vc'.dec_buf_size = vc.dec_buf_size
  vpt : ∃ epoch, vpt' = { vpt with keyed_epoch := epoch }

/-- Everything `vc_encode_more` can do: do nothing, leave the access unit given to
    the packetizer, or drop it. -/
theorem vc_encode_more_cases (vc : vpt_codec) (vpt : vpt_state) (packetize : Packetizer)
    (out_size : Nat) (output : Output) :
    let e := vc_encode_more vc vpt packetize out_size output
    EncodeKeeps vc e.vc vpt e.vpt ∧ e.vc.enc_epoch = vc.enc_epoch ∧
      ((e.fate = .skipped ∧ (out_size = 0 ∨ vc.enc_len ≤ vc.enc_pos) ∧ e.vc = vc ∧ e.vpt = vpt) ∨
        (e.fate = .packetized ∧ e.vc.enc_sent_key = vc.enc_sent_key ∧ e.vpt = vpt) ∨
        (e.fate = .dropped ∧ e.vc.enc_sent_key = false ∧ e.vpt = set_keyed vpt 0)) := by
  have hkeep : ∃ epoch, vpt = { vpt with keyed_epoch := epoch } := ⟨vpt.keyed_epoch, rfl⟩
  unfold vc_encode_more
  split
  · rename_i hout
    exact ⟨⟨rfl, rfl, rfl, rfl, rfl, rfl, hkeep⟩, rfl, .inl ⟨rfl, .inl hout, rfl, rfl⟩⟩
  split
  · rename_i hle
    exact ⟨⟨rfl, rfl, rfl, rfl, rfl, rfl, hkeep⟩, rfl, .inl ⟨rfl, .inr hle, rfl, rfl⟩⟩
  · split
    · exact ⟨⟨rfl, rfl, rfl, rfl, rfl, rfl, 0, rfl⟩, rfl, .inr (.inr ⟨rfl, rfl, rfl⟩)⟩
    · dsimp only
      split
      · exact ⟨⟨rfl, rfl, rfl, rfl, rfl, rfl, hkeep⟩, rfl, .inr (.inl ⟨rfl, rfl, rfl⟩)⟩
      · exact ⟨⟨rfl, rfl, rfl, rfl, rfl, rfl, hkeep⟩, rfl, .inr (.inl ⟨rfl, rfl, rfl⟩)⟩

/-- What the checks of `vc_encode_begin` let through. -/
structure EncodeInput (vc : vpt_codec) (input : pjmedia_frame) (hdr : au_hdr) : Prop where
  hdr_eq : hdr = input.buf.hdr
  cap : AU_HDR_SIZE ≤ input.buf.cap
  magic : hdr.magic = AU_MAGIC
  len_ne_zero : hdr.len ≠ 0
  len_le : hdr.len.toNat + AU_HDR_SIZE ≤ input.size
  fresh : vc.enc_have_seq = true → hdr.seq ≠ vc.enc_last_seq

/-- A frame that has an access unit in it passed every check of its header: the
    magic, a length that is not zero and within the frame, and an id other than that
    of the frame taken last. -/
theorem encode_input_some {vc : vpt_codec} {input : pjmedia_frame} {hdr : au_hdr}
    (hinput : encode_input vc input = .ok (some hdr)) : EncodeInput vc input hdr := by
  unfold encode_input at hinput
  by_cases hsize : input.size < AU_HDR_SIZE
  · simp [hsize, pure, Except.pure] at hinput
  · by_cases hcap : AU_HDR_SIZE ≤ input.buf.cap
    · simp only [hsize, if_false, FrameBuf.read_hdr_eq hcap, bind, Except.bind] at hinput
      split at hinput
      · simp [pure, Except.pure] at hinput
      · rename_i hchecks
        simp only [pure, Except.pure, Except.ok.injEq, Option.some.injEq] at hinput
        subst hinput
        simp only [not_or, not_and, not_not, Nat.not_lt] at hchecks
        obtain ⟨hmagic, hlen, hfits, hfresh⟩ := hchecks
        exact ⟨rfl, hcap, hmagic, hlen, by omega, hfresh⟩
    · simp [hsize, FrameBuf.read_hdr, hcap, bind, Except.bind] at hinput

/-- A frame whose buffer is as large as it claims is checked within it. The header
    may hold anything. -/
theorem encode_input_ok (vc : vpt_codec) {input : pjmedia_frame} (hcap : input.size ≤ input.buf.cap) :
    ∃ r, encode_input vc input = .ok r := by
  unfold encode_input
  by_cases hsize : input.size < AU_HDR_SIZE
  · exact ⟨none, by simp [hsize, pure, Except.pure]⟩
  · simp only [hsize, if_false, FrameBuf.read_hdr_eq (show AU_HDR_SIZE ≤ input.buf.cap by omega),
      bind, Except.bind]
    split
    · exact ⟨none, rfl⟩
    · exact ⟨_, rfl⟩

/-- What the end of `vc_encode_begin` makes of an access unit: it sends nothing,
    gives it to the packetizer, or drops it. -/
structure EncodeSent (vc : vpt_codec) (vpt : vpt_state) (hdr : au_hdr) (epoch : UInt32) (keyed : Bool)
    (e : Encoded) : Prop where
  keeps : EncodeKeeps vc e.vc vpt e.vpt
  enc_epoch : e.vc.enc_epoch = epoch
  cases : (e.fate = .skipped ∧ sent_key vc epoch keyed = false ∧ hdr.key = false ∧
      e.vc.enc_sent_key = false ∧ e.vpt = vpt) ∨
    (e.fate = .packetized ∧ (sent_key vc epoch keyed = true ∨ hdr.key = true) ∧
      e.vc.enc_sent_key = true ∧ e.vpt = if hdr.key then set_keyed vpt epoch else vpt) ∨
    (e.fate = .dropped ∧ (sent_key vc epoch keyed = true ∨ hdr.key = true) ∧
      e.vc.enc_sent_key = false ∧ e.vpt = set_keyed vpt 0)

/-- Two steps of an encode leave alone what both of them do. -/
theorem EncodeKeeps.trans {vc₁ vc₂ vc₃ : vpt_codec} {vpt₁ vpt₂ vpt₃ : vpt_state}
    (h₁ : EncodeKeeps vc₁ vc₂ vpt₁ vpt₂) (h₂ : EncodeKeeps vc₂ vc₃ vpt₂ vpt₃) :
    EncodeKeeps vc₁ vc₃ vpt₁ vpt₃ := by
  obtain ⟨epoch₁, rfl⟩ := h₁.vpt
  obtain ⟨epoch₂, hvpt⟩ := h₂.vpt
  exact ⟨h₂.prm.trans h₁.prm, h₂.enc_last_seq.trans h₁.enc_last_seq,
    h₂.enc_have_seq.trans h₁.enc_have_seq, h₂.enc_buf.trans h₁.enc_buf, h₂.dec_buf.trans h₁.dec_buf,
    h₂.dec_buf_size.trans h₁.dec_buf_size, epoch₂, hvpt⟩

/-- The first packet of an access unit that is not empty: it goes out, or the
    access unit is dropped. -/
theorem encodeSent_of_more {vc vc' : vpt_codec} {vpt vpt' : vpt_state} {hdr : au_hdr} {epoch : UInt32}
    {keyed : Bool} (hkeeps : EncodeKeeps vc vc' vpt vpt') (hepoch : vc'.enc_epoch = epoch)
    (hlen : vc'.enc_len ≠ 0) (hpos : vc'.enc_pos = 0) (hsent' : vc'.enc_sent_key = true)
    (hvpt : vpt' = if hdr.key then set_keyed vpt epoch else vpt)
    (hsent : sent_key vc epoch keyed = true ∨ hdr.key = true) (packetize : Packetizer) {out_size : Nat}
    (hout : out_size ≠ 0) (output : Output) :
    EncodeSent vc vpt hdr epoch keyed (vc_encode_more vc' vpt' packetize out_size output) := by
  obtain ⟨hmore, hepoch', hcases⟩ := vc_encode_more_cases vc' vpt' packetize out_size output
  refine ⟨hkeeps.trans hmore, hepoch'.trans hepoch, ?_⟩
  rcases hcases with ⟨-, hle, -⟩ | ⟨hfate, hflag, hsame⟩ | ⟨hfate, hflag, hzero⟩
  · rw [hpos] at hle
    exact absurd (UInt32.le_zero_iff.mp (hle.resolve_left hout)) hlen
  · exact .inr (.inl ⟨hfate, hsent, hflag.trans hsent', hsame.trans hvpt⟩)
  · obtain ⟨keyed', rfl⟩ := hkeeps.vpt
    exact .inr (.inr ⟨hfate, hsent, hflag, hzero⟩)

/-- The code marks the epoch as new only where it is; either way it ends in the same
    fields. -/
theorem encode_gate_eq (vc : vpt_codec) (hdr : au_hdr) (epoch : UInt32) (keyed : Bool) :
    encode_gate vc hdr epoch keyed =
      { vc with enc_epoch := epoch, enc_sent_key := sent_key vc epoch keyed, enc_key := hdr.key } := by
  unfold encode_gate sent_key
  by_cases hepoch : vc.enc_epoch ≠ epoch
  · rw [if_pos hepoch, if_pos hepoch]
    rfl
  · rw [if_neg hepoch, if_neg hepoch]
    rw [not_not] at hepoch
    subst hepoch
    rfl

/-- What the codec is like once the epochs are read: it waits for a keyframe, or
    holds a copy of an access unit that may be sent. -/
structure EncodeReady (vc : vpt_codec) (hdr : au_hdr) (epoch : UInt32) (keyed : Bool) (send : Bool)
    (vc' : vpt_codec) : Prop where
  keeps (vpt : vpt_state) : EncodeKeeps vc vc' vpt vpt
  enc_epoch : vc'.enc_epoch = epoch
  enc_key : vc'.enc_key = hdr.key
  enc_sent_key : vc'.enc_sent_key = send
  enc_single_nal : vc'.enc_single_nal = vc.enc_single_nal
  waits : send = false → sent_key vc epoch keyed = false ∧ hdr.key = false
  sends : send = true → (sent_key vc epoch keyed = true ∨ hdr.key = true) ∧ vc'.enc_len = hdr.len ∧
    vc'.enc_pos = 0

/-- What an access unit is made ready to, where the copy stays in the codec's
    buffer. -/
theorem encode_ready_spec {vc vc' : vpt_codec} {input : pjmedia_frame} {hdr : au_hdr} {epoch : UInt32}
    {keyed send : Bool} (hready : encode_ready vc input hdr epoch keyed = .ok (send, vc')) :
    EncodeReady vc hdr epoch keyed send vc' ∧
      (send = true → vc'.access_unit = input.buf.body.take hdr.len.toNat ∧
        vc'.access_unit.length = vc'.enc_len.toNat) := by
  unfold encode_ready at hready
  rw [encode_gate_eq] at hready
  dsimp only at hready
  by_cases hwait : (!sent_key vc epoch keyed && !hdr.key) = true
  · rw [if_pos hwait] at hready
    cases hready
    simp only [Bool.and_eq_true, Bool.not_eq_true'] at hwait
    exact ⟨⟨fun vpt => ⟨rfl, rfl, rfl, rfl, rfl, rfl, vpt.keyed_epoch, rfl⟩, rfl, rfl, hwait.1, rfl,
      fun _ => hwait, by simp⟩, by simp⟩
  · rw [if_neg hwait] at hready
    have hsent : sent_key vc epoch keyed = true ∨ hdr.key = true := by
      cases h : sent_key vc epoch keyed <;> simp_all
    obtain ⟨frame, hframe, hrest⟩ := except_bind_ok hready
    obtain ⟨enc_buf, hcopy, hrest⟩ := except_bind_ok hrest
    cases hrest
    refine ⟨⟨fun vpt => ⟨rfl, rfl, rfl, length_of_pj_memcpy hcopy, rfl, rfl, vpt.keyed_epoch, rfl⟩, rfl, rfl, rfl,
      rfl, by simp, fun _ => ⟨hsent, rfl, rfl⟩⟩, fun _ => ?_⟩
    obtain ⟨hlen, rfl⟩ := read_bytes_ok hframe
    have htake : (input.buf.body.take hdr.len.toNat).length = hdr.len.toNat := by
      rw [List.length_take]
      omega
    have haccess := take_of_pj_memcpy hcopy htake
    refine ⟨haccess, ?_⟩
    rw [vpt_codec.access_unit, haccess, htake]

/-- It does stay there, where the size in the header is within the frame and the
    buffer. -/
theorem encode_ready_ok (vc : vpt_codec) {input : pjmedia_frame} {hdr : au_hdr}
    (hbody : hdr.len.toNat ≤ input.buf.body.length) (hbuf : hdr.len.toNat ≤ vc.enc_buf.length)
    (epoch : UInt32) (keyed : Bool) :
    ∃ send vc', encode_ready vc input hdr epoch keyed = .ok (send, vc') := by
  unfold encode_ready
  rw [encode_gate_eq]
  dsimp only
  split
  · exact ⟨false, _, rfl⟩
  · have hcopied : (input.buf.body.take hdr.len.toNat).length ≤ vc.enc_buf.length := by
      rw [List.length_take]
      omega
    simp only [read_bytes_eq hbody, pj_memcpy_eq hcopied, pure, Except.pure, bind, Except.bind]
    exact ⟨true, _, rfl⟩

/-- An access unit within its buffers is sent, dropped, or left out, and no byte is
    read or written elsewhere. The packetizer may do anything. -/
theorem encode_send_ok (vc : vpt_codec) (vpt : vpt_state) {input : pjmedia_frame} {hdr : au_hdr}
    (hlen : hdr.len ≠ 0) (hbody : hdr.len.toNat ≤ input.buf.body.length)
    (hbuf : hdr.len.toNat ≤ vc.enc_buf.length) (epoch : UInt32) (keyed : Bool) (packetize : Packetizer)
    {out_size : Nat} (hout : out_size ≠ 0) (output : Output) :
    ∃ e, encode_send vc vpt input hdr epoch keyed packetize out_size output = .ok e ∧
      EncodeSent vc vpt hdr epoch keyed e := by
  obtain ⟨send, vc', hready⟩ := encode_ready_ok vc hbody hbuf epoch keyed
  obtain ⟨hspec, -⟩ := encode_ready_spec hready
  unfold encode_send
  simp only [hready, bind, Except.bind]
  cases send with
  | false =>
    obtain ⟨hsent, hplain⟩ := hspec.waits rfl
    exact ⟨_, rfl, hspec.keeps vpt, hspec.enc_epoch, .inl ⟨rfl, hsent, hplain, hspec.enc_sent_key, rfl⟩⟩
  | true =>
    obtain ⟨hsent, hlen', hpos⟩ := hspec.sends rfl
    rw [if_neg (by simp)]
    split
    · obtain ⟨hprm, hlast, hhave, henc, hdec, hdecsize, -⟩ := hspec.keeps vpt
      exact ⟨_, rfl, ⟨hprm, hlast, hhave, henc, hdec, hdecsize, _, rfl⟩, hspec.enc_epoch,
        .inr (.inr ⟨rfl, hsent, rfl, rfl⟩)⟩
    · obtain ⟨hprm, hlast, hhave, henc, hdec, hdecsize, -⟩ := hspec.keeps vpt
      rw [hspec.enc_key]
      have hkeeps : EncodeKeeps vc vc' vpt (if hdr.key then set_keyed vpt epoch else vpt) := by
        refine ⟨hprm, hlast, hhave, henc, hdec, hdecsize, ?_⟩
        split
        · exact ⟨epoch, rfl⟩
        · exact ⟨vpt.keyed_epoch, rfl⟩
      exact ⟨_, rfl, encodeSent_of_more hkeeps hspec.enc_epoch (hlen' ▸ hlen) hpos hspec.enc_sent_key rfl
        hsent _ hout _⟩

/-- Everything `vc_encode_begin` can do: refuse the frame, or the size of the
    output buffer, and leave all as it was, or take the frame, tell the queue, and
    go on with it. -/
inductive BeginStep (vc : vpt_codec) (vpt : vpt_state) (slot : Option Shared) (input : pjmedia_frame)
    (b : Begun) : Prop where
  | refused (hconsumed : b.consumed = none)
      (hfate : b.encoded.fate = .skipped) (hvc : b.encoded.vc = vc) (hvpt : b.encoded.vpt = vpt)
      (hslot : b.slot = slot)
  | taken (hdr : au_hdr) (hinput : EncodeInput vc input hdr) (hconsumed : b.consumed = some hdr)
      (hslot : b.slot = if vpt.cb.capture_consumed then slot.map (capture_consumed · hdr.seq) else slot)
      (hsent : EncodeSent (encode_take vc hdr) vpt hdr vpt.source_epoch
        (vpt.keyed_epoch == vpt.source_epoch) b.encoded)

/-- On a frame whose buffer is as large as it claims, and no larger than what
    the codec was opened for, `vc_encode_begin` stays inside both buffers. -/
theorem vc_encode_begin_ok (vc : vpt_codec) (vpt : vpt_state) (input : pjmedia_frame)
    (hcap : input.size ≤ input.buf.cap) (hbuf : input.size ≤ vc.enc_buf.length + AU_HDR_SIZE)
    (slot : Option Shared) (force_keyframe : Bool) (packetize : Packetizer) (out_size : Nat)
    (output : Output) :
    ∃ b, vc_encode_begin vc vpt slot force_keyframe input packetize out_size output = .ok b ∧
      BeginStep vc vpt slot input b := by
  by_cases hout : out_size = 0
  · rw [vc_encode_begin, if_pos hout]
    exact ⟨_, rfl, .refused rfl rfl rfl rfl rfl⟩
  rw [vc_encode_begin, if_neg hout]
  obtain ⟨r, hr⟩ := encode_input_ok vc hcap
  cases r with
  | none =>
    simp only [hr, pure, Except.pure, bind, Except.bind]
    exact ⟨_, rfl, .refused rfl rfl rfl rfl rfl⟩
  | some hdr =>
    have hinput := encode_input_some hr
    have hlen := hinput.len_le
    have hbody : hdr.len.toNat ≤ input.buf.body.length := by
      rw [input.buf.length_body]
      omega
    obtain ⟨e, he, hsent⟩ := encode_send_ok (encode_take vc hdr) vpt hinput.len_ne_zero
      hbody (show _ ≤ vc.enc_buf.length by omega) vpt.source_epoch (vpt.keyed_epoch == vpt.source_epoch)
      packetize hout output
    simp only [hr, read_epochs, he, pure, Except.pure, bind, Except.bind]
    exact ⟨_, rfl, .taken hdr hinput rfl rfl ⟨hsent.keeps, hsent.enc_epoch, hsent.cases⟩⟩

end pjsua_rust.video_passthrough
