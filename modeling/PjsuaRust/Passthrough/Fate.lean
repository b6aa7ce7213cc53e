import PjsuaRust.Passthrough.SingleNal

open pjsua_rust.video

namespace pjsua_rust.video_passthrough

/-- The codec gives up an access unit at its first packet: it fails the check in
    single-NAL mode, or the packetizer fails on it. -/
def vpt_codec.refuses (vc : vpt_codec) (packetize : Packetizer) (frame : List UInt8) : Bool :=
  oversized vc frame || (packetize frame 0).isNone

/-- What becomes of an access unit, given whether a keyframe of its stream has
    gone out, whether it is one, and whether the codec refuses it. -/
def fate (sent key refuses : Bool) : Fate :=
  if sent || key then if refuses then .dropped else .packetized else .skipped

/-- A keyframe of the stream has gone out once an access unit is packetized, and
    none counts any longer once one is skipped or dropped. -/
def Fate.sent : Fate → Bool
  | .packetized => true
  | _ => false

/-- The check in single-NAL mode depends on the codec only through its mode and
    its parameters. -/
theorem oversized_congr {vc vc' : vpt_codec} (hprm : vc'.prm = vc.prm)
    (hsingle : vc'.enc_single_nal = vc.enc_single_nal) (frame : List UInt8) :
    oversized vc' frame = oversized vc frame := by
  rw [oversized, oversized, hprm, hsingle]

/-- Whether an access unit is refused depends on the mode and the MTU, and not on
    what the codec sent before. -/
theorem vpt_codec.refuses_congr {vc vc' : vpt_codec} (hprm : vc'.prm = vc.prm)
    (hsingle : vc'.enc_single_nal = vc.enc_single_nal) (packetize : Packetizer) (frame : List UInt8) :
    vc'.refuses packetize frame = vc.refuses packetize frame := by
  rw [refuses, refuses, oversized_congr hprm hsingle]

/-- A packet more of an access unit that is not empty: it is dropped exactly if
    the packetizer fails, and the mode stays. -/
theorem vc_encode_more_fate {vc : vpt_codec} (hlen : vc.enc_len ≠ 0) (hpos : vc.enc_pos = 0)
    (hsent : vc.enc_sent_key = true) (vpt : vpt_state) (packetize : Packetizer) {out_size : Nat}
    (hout : out_size ≠ 0) (output : Output) :
    let e := vc_encode_more vc vpt packetize out_size output
    e.fate = (if (packetize vc.access_unit 0).isNone then .dropped else .packetized) ∧
      e.vc.enc_sent_key = e.fate.sent ∧ e.vc.enc_single_nal = vc.enc_single_nal := by
  have hrest : ¬ vc.enc_len ≤ vc.enc_pos := by
    rw [hpos]
    exact fun hle => hlen (UInt32.le_zero_iff.mp hle)
  unfold vc_encode_more
  rw [if_neg hout, if_neg hrest, hpos]
  cases packetize vc.access_unit 0 with
  | none => exact ⟨rfl, rfl, rfl⟩
  | some packet =>
    dsimp only
    split
    · exact ⟨rfl, hsent, rfl⟩
    · exact ⟨rfl, hsent, rfl⟩

/-- What exactly becomes of an access unit that is not empty: it is left out,
    dropped or packetized as the flag of the codec, its own keyframe flag and the
    packetizer say. The buffer for the packet must have a size, or the function
    refuses the call. -/
theorem encode_send_fate {vc : vpt_codec} {vpt : vpt_state} {input : pjmedia_frame} {hdr : au_hdr} {epoch : UInt32}
    {keyed : Bool} {packetize : Packetizer} {out_size : Nat} {output : Output} {e : Encoded} (hlen : hdr.len ≠ 0)
    (hout : out_size ≠ 0) (hsend : encode_send vc vpt input hdr epoch keyed packetize out_size output = .ok e) :
    e.fate = fate (sent_key vc epoch keyed) hdr.key
        (vc.refuses packetize (input.buf.body.take hdr.len.toNat)) ∧
      e.vc.enc_sent_key = e.fate.sent ∧ e.vc.enc_single_nal = vc.enc_single_nal := by
  unfold encode_send at hsend
  obtain ⟨⟨send, vc'⟩, hready, hrest⟩ := except_bind_ok hsend
  obtain ⟨hspec, hcopied⟩ := encode_ready_spec hready
  cases send with
  | false =>
    cases hrest
    obtain ⟨hsent, hplain⟩ := hspec.waits rfl
    rw [fate, hsent, hplain]
    exact ⟨rfl, hspec.enc_sent_key, hspec.enc_single_nal⟩
  | true =>
    obtain ⟨haccess, -⟩ := hcopied rfl
    obtain ⟨hsent, hlen', hpos⟩ := hspec.sends rfl
    have hgoes : (sent_key vc epoch keyed || hdr.key) = true := by
      rw [Bool.or_eq_true]
      exact hsent
    dsimp only at hrest
    rw [Bool.not_true, if_neg Bool.false_ne_true] at hrest
    rw [fate, if_pos hgoes, vpt_codec.refuses,
      ← oversized_congr (hspec.keeps vpt).prm hspec.enc_single_nal, ← haccess]
    split at hrest
    · rename_i hlarge
      cases hrest
      rw [hlarge, Bool.true_or, if_pos rfl]
      exact ⟨rfl, rfl, hspec.enc_single_nal⟩
    · rename_i hchecked
      cases hrest
      rw [Bool.not_eq_true] at hchecked
      rw [hchecked, Bool.false_or]
      obtain ⟨hfate, hflag, hmode⟩ := vc_encode_more_fate (hlen' ▸ hlen) hpos hspec.enc_sent_key
        (if vc'.enc_key then set_keyed vpt epoch else vpt) packetize hout { output with timestamp := input.timestamp }
      exact ⟨hfate, hflag, hmode.trans hspec.enc_single_nal⟩

/-- Where the checks of `vc_encode_begin` let a frame through: it has a header with
    the right magic, a size that is not 0 and fits the frame, and an id other than
    that of the frame taken last. -/
theorem encode_input_eq {vc : vpt_codec} {input : pjmedia_frame} (hcap : AU_HDR_SIZE ≤ input.buf.cap)
    (hmagic : input.buf.hdr.magic = AU_MAGIC) (hlen : input.buf.hdr.len ≠ 0)
    (hfits : input.buf.hdr.len.toNat + AU_HDR_SIZE ≤ input.size)
    (hnew : vc.enc_have_seq = true → input.buf.hdr.seq ≠ vc.enc_last_seq) :
    encode_input vc input = .ok (some input.buf.hdr) := by
  unfold encode_input
  rw [if_neg (show ¬ input.size < AU_HDR_SIZE by omega)]
  simp only [FrameBuf.read_hdr_eq hcap, bind, Except.bind]
  rw [if_neg]
  · rfl
  · rintro (hne | hzero | hlarge | ⟨hhave, hsame⟩)
    · exact hne hmagic
    · exact hlen hzero
    · omega
    · exact hnew hhave hsame

/-- What exactly becomes of a frame that `vc_encode_begin` takes. It is taken from
    the queue whatever becomes of it, and the epochs it goes by are those of the
    module at the call. -/
theorem vc_encode_begin_fate {vc : vpt_codec} {vpt : vpt_state} {input : pjmedia_frame} {hdr : au_hdr}
    (hinput : encode_input vc input = .ok (some hdr)) {slot : Option Shared} {force_keyframe : Bool}
    {packetize : Packetizer} {out_size : Nat} (hout : out_size ≠ 0) {output : Output} {b : Begun}
    (hbegin : vc_encode_begin vc vpt slot force_keyframe input packetize out_size output = .ok b) :
    b.consumed = some hdr ∧
      b.encoded.fate = fate (sent_key vc vpt.source_epoch (vpt.keyed_epoch == vpt.source_epoch)) hdr.key
        (vc.refuses packetize (input.buf.body.take hdr.len.toNat)) ∧
      b.encoded.vc.enc_sent_key = b.encoded.fate.sent ∧ b.encoded.vc.enc_single_nal = vc.enc_single_nal := by
  have hlen := (encode_input_some hinput).len_ne_zero
  rw [vc_encode_begin, if_neg hout] at hbegin
  simp only [hinput, bind, Except.bind, read_epochs] at hbegin
  split at hbegin
  · cases hbegin
  · rename_i e hsend
    cases hbegin
    obtain ⟨hfate, hflag, hmode⟩ := encode_send_fate hlen hout hsend
    exact ⟨rfl, hfate, hflag, hmode⟩

/-- The packet that a call of the encoder returns, if it returns one. -/
def Encoded.packets (e : Encoded) : List (List UInt8) :=
  if e.status = .PJ_SUCCESS ∧ e.output.type = .VIDEO then [e.output.payload] else []

/-- One packet more of an access unit, in a buffer it fits. The codec moves on to
    where the packetizer stopped, and says that there is more if that is not the
    end. -/
theorem vc_encode_more_packet {vc : vpt_codec} {packetize : Packetizer} {packet : Packet} {out_size : Nat}
    (hout : out_size ≠ 0) (hrest : ¬ vc.enc_len ≤ vc.enc_pos)
    (hpacket : packetize vc.access_unit vc.enc_pos = some packet)
    (hroom : packet.payload.length ≤ out_size) (vpt : vpt_state) (output : Output) :
    let e := vc_encode_more vc vpt packetize out_size output
    e.packets = [packet.payload] ∧ e.has_more = decide (packet.pos < vc.enc_len) ∧
      e.vc = { vc with enc_pos := packet.pos } ∧ e.vpt = vpt ∧ e.fate = .packetized := by
  unfold vc_encode_more
  rw [if_neg hout, if_neg hrest, hpacket]
  dsimp only
  rw [if_neg (Nat.not_lt.mpr hroom)]
  exact ⟨rfl, rfl, rfl, rfl, rfl⟩

/-- The first packet of an access unit that goes out, and nothing of one that does
    not. -/
theorem encode_send_packets {vc : vpt_codec} {vpt : vpt_state} {input : pjmedia_frame} {hdr : au_hdr} {epoch : UInt32}
    {keyed : Bool} {packetize : Packetizer} {out_size : Nat} {output : Output} {e : Encoded} (hlen : hdr.len ≠ 0)
    (hout : out_size ≠ 0) (hsend : encode_send vc vpt input hdr epoch keyed packetize out_size output = .ok e) :
    (e.fate ≠ .packetized → e.packets = [] ∧ e.has_more = false) ∧
      (e.fate = .packetized →
        (∀ packet ∈ packetize (input.buf.body.take hdr.len.toNat) 0, packet.payload.length ≤ out_size) →
        ∃ packet, packetize (input.buf.body.take hdr.len.toNat) 0 = some packet ∧ e.packets = [packet.payload] ∧
          e.has_more = decide (packet.pos < e.vc.enc_len) ∧ e.vc.enc_pos = packet.pos ∧
          e.vc.access_unit = input.buf.body.take hdr.len.toNat ∧
          e.vc.enc_len.toNat = (input.buf.body.take hdr.len.toNat).length) := by
  unfold encode_send at hsend
  obtain ⟨⟨send, vc'⟩, hready, hrest⟩ := except_bind_ok hsend
  obtain ⟨hspec, hcopied⟩ := encode_ready_spec hready
  cases send with
  | false =>
    cases hrest
    exact ⟨fun _ => ⟨rfl, rfl⟩, fun h => by cases h⟩
  | true =>
    obtain ⟨haccess, hlength⟩ := hcopied rfl
    obtain ⟨-, hlen', hpos⟩ := hspec.sends rfl
    dsimp only at hrest
    rw [Bool.not_true, if_neg Bool.false_ne_true] at hrest
    split at hrest
    · cases hrest
      exact ⟨fun _ => ⟨rfl, rfl⟩, fun h => by cases h⟩
    · cases hrest
      have hmore : ¬ vc'.enc_len ≤ vc'.enc_pos := by
        rw [hpos]
        exact fun hle => hlen (hlen' ▸ UInt32.le_zero_iff.mp hle)
      rw [← haccess, ← hpos]
      cases hpacket : packetize vc'.access_unit vc'.enc_pos with
      | none =>
        unfold vc_encode_more
        rw [if_neg hout, if_neg hmore, hpacket]
        exact ⟨fun _ => ⟨rfl, rfl⟩, fun h => by cases h⟩
      | some packet =>
        refine ⟨fun hne => ?_, fun _ hroom => ?_⟩
        · obtain ⟨hfate, -⟩ := vc_encode_more_fate (hlen' ▸ hlen) hpos hspec.enc_sent_key
            (if vc'.enc_key then set_keyed vpt epoch else vpt) packetize hout
            { output with timestamp := input.timestamp }
          rw [← hpos, hpacket] at hfate
          exact absurd hfate hne
        obtain ⟨hpackets, hhas, hvc, -, -⟩ := vc_encode_more_packet hout hmore hpacket (hroom packet rfl)
          (if vc'.enc_key then set_keyed vpt epoch else vpt) { output with timestamp := input.timestamp }
        refine ⟨packet, rfl, hpackets, ?_, ?_, ?_, ?_⟩
        · rw [hhas, hvc]
        · rw [hvc]
        · rw [hvc]
          rfl
        · rw [hvc, hlength]

/-- The same of the whole call: an access unit that is not packetized leaves no
    packet and nothing to come, and one that is leaves its first packet, if that
    fits the buffer. -/
theorem vc_encode_begin_packets {vc : vpt_codec} {vpt : vpt_state} {slot : Option Shared} {force_keyframe : Bool}
    {input : pjmedia_frame} {packetize : Packetizer} {out_size : Nat} {output : Output} {b : Begun}
    (hbegin : vc_encode_begin vc vpt slot force_keyframe input packetize out_size output = .ok b) :
    (b.encoded.fate ≠ .packetized → b.encoded.packets = [] ∧ b.encoded.has_more = false) ∧
      (b.encoded.fate = .packetized →
        (∀ packet ∈ packetize input.access_unit 0, packet.payload.length ≤ out_size) →
        ∃ packet, packetize input.access_unit 0 = some packet ∧ b.encoded.packets = [packet.payload] ∧
          b.encoded.has_more = decide (packet.pos < b.encoded.vc.enc_len) ∧ b.encoded.vc.enc_pos = packet.pos ∧
          b.encoded.vc.access_unit = input.access_unit ∧
          b.encoded.vc.enc_len.toNat = input.access_unit.length) := by
  unfold vc_encode_begin at hbegin
  by_cases hout : out_size = 0
  · rw [if_pos hout] at hbegin
    cases hbegin
    exact ⟨fun _ => ⟨rfl, rfl⟩, fun h => by cases h⟩
  rw [if_neg hout] at hbegin
  obtain ⟨checked, hchecked, hrest⟩ := except_bind_ok hbegin
  cases checked with
  | none =>
    cases hrest
    exact ⟨fun _ => ⟨rfl, rfl⟩, fun h => by cases h⟩
  | some hdr =>
    have hinput := encode_input_some hchecked
    obtain ⟨e, hsend, hrest⟩ := except_bind_ok hrest
    cases hrest
    have hsent := encode_send_packets hinput.len_ne_zero hout hsend
    rw [hinput.hdr_eq] at hsent
    exact hsent

end pjsua_rust.video_passthrough
