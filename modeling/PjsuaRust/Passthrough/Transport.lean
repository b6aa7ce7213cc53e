import PjsuaRust.AnnexB.Join
import PjsuaRust.Passthrough.Decode
import PjsuaRust.Passthrough.Scanners
import PjsuaRust.Passthrough.SingleNal

open annexb

namespace pjsua_rust.video_passthrough

/-- The payloads that the packetizer makes of an access unit, from a position to
    its end. -/
inductive Payloads (packetize : Packetizer) (bits : List UInt8) : UInt32 → List (List UInt8) → Prop where
  | done {pos : UInt32} (hdone : bits.length ≤ pos.toNat) : Payloads packetize bits pos []
  | next {pos : UInt32} {packet : Packet} {rest : List (List UInt8)} (hrest : pos.toNat < bits.length)
      (hpacket : packetize bits pos = some packet) (hafter : Payloads packetize bits packet.pos rest) :
      Payloads packetize bits pos (packet.payload :: rest)

/-- What the unpacketizer makes of the payloads, in a buffer of `size` bytes: an
    access unit with the NAL units of the one they were made of. -/
def Reassembles (unpacketize : Unpacketizer) (size : UInt32) (payloads : List (List UInt8)) (bits : List UInt8) : Prop :=
  ∀ packets dec_buf, packets.map RtpPacket.payload = payloads → dec_buf.length = size.toNat →
    ∃ dec_buf' len, unpacketize_all unpacketize packets dec_buf = (dec_buf', len) ∧ dec_buf'.length = size.toNat ∧
      len ≠ 0 ∧ len ≤ size ∧ nal_units (dec_buf'.take len.toNat) = nal_units bits

/-- Whether an access unit is a keyframe shows in its NAL units. -/
theorem is_keyframe_congr {bits bits' : List UInt8} (hunits : nal_units bits' = nal_units bits) :
    is_keyframe bits' = is_keyframe bits := by
  rw [Bool.eq_iff_iff, is_keyframe_iff, is_keyframe_iff, hunits]

/-- The stream's buffer holds the header and whatever fits the decoder's. -/
structure DecodeRoom (vc : vpt_codec) (out_size : UInt32) (output : pjmedia_frame) : Prop where
  dec_buf : vc.dec_buf.length = vc.dec_buf_size.toNat
  out_size : AU_HDR_SIZE + vc.dec_buf_size.toNat ≤ out_size.toNat
  cap : AU_HDR_SIZE + vc.dec_buf_size.toNat ≤ output.buf.cap

/-- An access unit that is reassembled is rendered and put in the frame, with the
    keyframe flag its NAL units give it. -/
theorem vc_decode_delivers {vc : vpt_codec} {out_size : UInt32} {output : pjmedia_frame}
    (hroom : DecodeRoom vc out_size output) {vpt : vpt_state} (hcb : vpt.cb.render_push = true)
    {unpacketize : Unpacketizer} {payloads : List (List UInt8)} {bits : List UInt8}
    (hwhole : Reassembles unpacketize vc.dec_buf_size payloads bits) {packets : List RtpPacket}
    (hpackets : packets.map RtpPacket.payload = payloads) (hsome : payloads ≠ []) :
    ∃ d au, vc_decode vc vpt unpacketize packets out_size output = .ok d ∧ d.status = .PJ_SUCCESS ∧
      nal_units au = nal_units bits ∧ d.callbacks = [.render_push au (is_keyframe bits)] ∧
      d.output.type = .VIDEO ∧ d.output.buf.hdr.seq = vc.dec_seq + 1 ∧ d.output.buf.hdr.key = is_keyframe bits ∧
      d.output.buf.body.take d.output.buf.hdr.len.toNat = au ∧ DecodeRoom d.vc out_size output ∧
      d.vc.dec_buf_size = vc.dec_buf_size ∧ d.vc.dec_seq = vc.dec_seq + 1 := by
  obtain ⟨dec_buf, len, hunpacked, hlength, hlen, hle, hunits⟩ := hwhole packets vc.dec_buf hpackets hroom.dec_buf
  have hsize := hroom.out_size
  have hcap := hroom.cap
  have hle' : len.toNat ≤ vc.dec_buf_size.toNat := UInt32.le_iff_toNat_le.mp hle
  have hkey := is_keyframe_congr hunits
  cases packets with
  | nil => exact absurd hpackets.symm hsome
  | cons first rest =>
    have hfits : ¬ (len = 0 ∨ out_size < UInt32.ofNat AU_HDR_SIZE + len) := by
      rintro (hzero | hsmall)
      · exact hlen hzero
      · have hsum : (UInt32.ofNat AU_HDR_SIZE + len).toNat = AU_HDR_SIZE + len.toNat := by
          have hword := out_size.toNat_lt
          rw [UInt32.toNat_add]
          exact Nat.mod_eq_of_lt (by
            rw [show (UInt32.ofNat AU_HDR_SIZE).toNat = AU_HDR_SIZE from rfl]
            omega)
        rw [UInt32.lt_iff_toNat_lt, hsum] at hsmall
        omega
    unfold vc_decode
    rw [hunpacked]
    dsimp only
    rw [if_neg hfits, decode_deliver]
    simp only [read_bytes_eq (show len.toNat ≤ dec_buf.length by omega),
      FrameBuf.write_hdr_eq (show AU_HDR_SIZE ≤ output.buf.cap by omega), bind, Except.bind, hcb, if_true, hkey]
    obtain ⟨buf, hwrite, hbufcap, hhdr, hbody⟩ := FrameBuf.write_body_spec
      { output.buf with hdr := {
        magic := AU_MAGIC
        seq := vc.dec_seq + 1
        len := len
        flags := if is_keyframe bits then AU_FLAG_KEYFRAME else 0 } }
      (dec_buf.take len.toNat) (by rw [List.length_take]; dsimp only; omega)
    have htake : (dec_buf.take len.toNat).length = len.toNat := by
      rw [List.length_take]
      omega
    rw [htake] at hbody
    rw [hwrite]
    refine ⟨_, dec_buf.take len.toNat, rfl, rfl, hunits, ?_, rfl, ?_, ?_, ?_, ⟨?_, hsize, hcap⟩, rfl, rfl⟩
    · cases is_keyframe bits <;> rfl
    · rw [hhdr]
    · rw [hhdr]
      exact au_hdr.key_eq rfl
    · rw [hhdr]
      exact hbody
    · exact hlength

/-- The NAL unit type, in the low five bits of the first byte. -/
def unit_type (unit : List UInt8) : Option UInt8 := unit.head?.map (· &&& 0x1F)

/-- A payload that is one NAL unit: its type is neither 0 nor that of an
    aggregate or a fragment. -/
def WholeUnit (payload : List UInt8) : Prop :=
  2 ≤ payload.length ∧ ∃ t ∈ unit_type payload, 1 ≤ t ∧ t ≤ 23

/-- PJMEDIA's unpacketizer, made with `unpack_nal_start = 4`, on payloads of one
    NAL unit: it puts each behind a start code of four bytes, where it fits. -/
structure UnpacketsWhole (unpacketize : Unpacketizer) : Prop where
  whole : ∀ payload bits (pos : UInt32), WholeUnit payload → bits.length < 2 ^ 32 →
    pos.toNat + 4 + payload.length ≤ bits.length →
    ∃ pos' : UInt32, pos'.toNat = pos.toNat + 4 + payload.length ∧ unpacketize payload bits pos =
      (.PJ_SUCCESS, bits.take pos.toNat ++ (START ++ payload) ++ bits.drop pos'.toNat, pos')

section SingleNal

variable {mtu : Nat} {packetize : Packetizer} {unpacketize : Unpacketizer} {bits : List UInt8}

/-- One packet in this mode: the bytes behind the next start code, up to where the
    one after that is found, or the end. -/
theorem SingleNal.packet_cut (hpacketize : SingleNal mtu packetize) (hlength : bits.length < 2 ^ 32) {pos : UInt32}
    {p : Nat} (hp : next_start_code bits pos.toNat = some p) {packet : Packet}
    (hpacket : packetize bits pos = some packet) :
    packet.payload = cut bits p ∧ pos.toNat < packet.pos.toNat ∧
      start_codes bits packet.pos.toNat = start_codes bits (p + 3) ∧
      (bits.length ≤ packet.pos.toNat ∨ ∃ q, next_start_code bits packet.pos.toNat = some q) := by
  obtain ⟨hle, hcode⟩ := next_start_code_some hp
  obtain ⟨hpos, hpayload⟩ := hpacketize.packet bits pos packet hlength hpacket
  have hstart := unit_start_of_some hp
  rw [unit_size, hstart] at hpayload
  rw [hstart] at hpos
  have hstop := hcode.le_unit_stop
  have hnext : next_start_code bits packet.pos.toNat = next_start_code bits (p + 3) := by
    rw [hpos]
    exact next_start_code_unit_stop hcode
  refine ⟨?_, by omega, ?_, ?_⟩
  · rw [hpayload, cut, List.take_drop]
    congr 2
    omega
  · rw [start_codes_eq, hnext, ← start_codes_eq]
  · rw [hnext]
    cases hnext' : next_start_code bits (p + 3) with
    | none =>
      left
      rw [hpos, unit_stop, hnext']
    | some q => exact .inr ⟨q, rfl⟩

/-- The payloads in this mode are the bytes behind each start code, up to the zero
    byte in front of the next one. This holds for whatever the packetizer was asked
    before. -/
theorem SingleNal.payloads (hpacketize : SingleNal mtu packetize) (hlength : bits.length < 2 ^ 32) {pos : UInt32}
    {payloads : List (List UInt8)} (hpayloads : Payloads packetize bits pos payloads)
    (hcode : bits.length ≤ pos.toNat ∨ ∃ p, next_start_code bits pos.toNat = some p) :
    payloads = (start_codes bits pos.toNat).map (cut bits) := by
  induction hpayloads with
  | done hdone => rw [start_codes_of_end (by omega), List.map_nil]
  | @next pos packet rest hrest hpacket hafter ih =>
    obtain ⟨p, hp⟩ := hcode.resolve_left (by omega)
    obtain ⟨hpayload, -, hcodes, hmore⟩ := hpacketize.packet_cut hlength hp hpacket
    rw [ih hmore, start_codes_eq bits pos.toNat, hp, List.map_cons, hcodes, hpayload]

/-- The packetizer gets through an access unit whose cuts are within the MTU. It
    takes one start code after the other, so that the induction is on the bytes that
    are left. -/
theorem SingleNal.exists_payloads (hpacketize : SingleNal mtu packetize) (hlength : bits.length < 2 ^ 32)
    (hwithin : ∀ p, StartCode bits p → (cut bits p).length ≤ mtu) (pos : UInt32)
    (hcode : bits.length ≤ pos.toNat ∨ ∃ p, next_start_code bits pos.toNat = some p) :
    ∃ payloads, Payloads packetize bits pos payloads := by
  -- Each packet leaves less of the access unit.
  induction hleft : bits.length - pos.toNat using Nat.strong_induction_on generalizing pos with
  | h left ih =>
    by_cases hdone : bits.length ≤ pos.toNat
    · exact ⟨[], .done hdone⟩
    · obtain ⟨p, hp⟩ := hcode.resolve_left hdone
      have hsize : ¬ mtu < unit_size bits pos.toNat := by
        have hcut := hwithin p (next_start_code_some hp).2
        have hstop : unit_stop bits (p + 3) ≤ bits.length := unit_stop_le_length
        rw [cut, List.length_drop, List.length_take, Nat.min_eq_left hstop] at hcut
        rw [unit_size, unit_start_of_some hp]
        omega
      cases hpacket : packetize bits pos with
      | none => exact absurd ((hpacketize.fails bits pos hlength).mp hpacket) hsize
      | some packet =>
        obtain ⟨-, hforward, -, hmore⟩ := hpacketize.packet_cut hlength hp hpacket
        obtain ⟨payloads, hpayloads⟩ := ih (bits.length - packet.pos.toNat) (by omega) packet.pos hmore rfl
        exact ⟨packet.payload :: payloads, .next (by omega) hpacket hpayloads⟩

/-- The loop of `vc_decode`, from a position in the buffer on. -/
def unpacketize_from (unpacketize : Unpacketizer) (packets : List RtpPacket) (start : List UInt8 × UInt32) :
    List UInt8 × UInt32 :=
  packets.foldl (fun (bits, whole_len) packet =>
    let (_, bits, whole_len) := unpacketize packet.payload bits whole_len
    (bits, whole_len)) start

/-- The unpacketizer puts payloads of one NAL unit each one behind the other, each
    with a start code in front. The buffer must have room for all of them; a packet
    without room would be left out. -/
theorem unpacketize_from_whole (hunpacketize : UnpacketsWhole unpacketize) {packets : List RtpPacket}
    (hwhole : ∀ packet ∈ packets, WholeUnit packet.payload) (buf : List UInt8) (hsmall : buf.length < 2 ^ 32)
    (pos : UInt32) (hfits : pos.toNat + (join (packets.map RtpPacket.payload)).length ≤ buf.length) :
    ∃ buf' len, unpacketize_from unpacketize packets (buf, pos) = (buf', len) ∧ buf'.length = buf.length ∧
      len.toNat = pos.toNat + (join (packets.map RtpPacket.payload)).length ∧
      buf'.take len.toNat = buf.take pos.toNat ++ join (packets.map RtpPacket.payload) := by
  induction packets generalizing buf pos with
  | nil => exact ⟨buf, pos, rfl, rfl, rfl, (List.append_nil _).symm⟩
  | cons packet packets ih =>
    have hpacket := hwhole packet List.mem_cons_self
    rw [List.map_cons, join_cons, List.length_append, List.length_append, length_start] at hfits
    obtain ⟨pos', hpos', hcopied⟩ := hunpacketize.whole packet.payload buf pos hpacket hsmall (by omega)
    have hlength : (buf.take pos.toNat ++ (START ++ packet.payload) ++ buf.drop pos'.toNat).length = buf.length := by
      simp only [List.length_append, List.length_take, List.length_drop, length_start]
      omega
    have htake : (buf.take pos.toNat ++ (START ++ packet.payload) ++ buf.drop pos'.toNat).take pos'.toNat =
        buf.take pos.toNat ++ (START ++ packet.payload) := by
      apply List.take_left'
      simp only [List.length_append, List.length_take, length_start]
      omega
    obtain ⟨buf', len, hrest, hlength', hlen, hbytes⟩ := ih (fun p hp => hwhole p (List.mem_cons_of_mem _ hp))
      (buf.take pos.toNat ++ (START ++ packet.payload) ++ buf.drop pos'.toNat) (by omega) pos' (by omega)
    refine ⟨buf', len, ?_, hlength'.trans hlength, ?_, ?_⟩
    · rw [unpacketize_from, List.foldl_cons]
      dsimp only
      rw [hcopied]
      exact hrest
    · rw [hlen, hpos', List.map_cons, join_cons, List.length_append, List.length_append, length_start]
      omega
    · rw [hbytes, htake, List.map_cons, join_cons, List.append_assoc]

/-- In single-NAL mode every access unit in Annex-B form is reassembled, if its NAL
    units are such that a packet can carry one and it fits with start codes of four
    bytes. -/
theorem SingleNal.reassembles (hpacketize : SingleNal mtu packetize) (hunpacketize : UnpacketsWhole unpacketize)
    (hlength : bits.length < 2 ^ 32) {p : Nat} (hcode : next_start_code bits 0 = some p)
    {payloads : List (List UInt8)} (hpayloads : Payloads packetize bits 0 payloads)
    (hwhole : ∀ payload ∈ payloads, WholeUnit payload) {size : UInt32}
    (hfits : (join payloads).length ≤ size.toNat) : Reassembles unpacketize size payloads bits := by
  rintro packets dec_buf rfl hdec_buf
  have hword := size.toNat_lt
  have hcuts := hpacketize.payloads hlength hpayloads (.inr ⟨p, hcode⟩)
  obtain ⟨buf, len, hall, hbuf, hlen, hbytes⟩ := unpacketize_from_whole hunpacketize
    (fun packet hpacket => hwhole _ (List.mem_map_of_mem hpacket)) dec_buf (by omega) 0
    (by rw [hdec_buf, UInt32.toNat_zero, Nat.zero_add]; exact hfits)
  rw [UInt32.toNat_zero, Nat.zero_add] at hlen
  refine ⟨buf, len, hall, hbuf.trans hdec_buf, ?_, ?_, ?_⟩
  · rintro rfl
    rw [hcuts, UInt32.toNat_zero, start_codes_eq, hcode, List.map_cons, join_cons, List.length_append,
      List.length_append, length_start] at hlen
    change 0 = _ at hlen
    omega
  · rw [UInt32.le_iff_toNat_le, hlen]
    exact hfits
  · rw [hbytes, UInt32.toNat_zero, List.take_zero, List.nil_append, hcuts]
    exact nal_units_join_cuts bits

/-- In single-NAL mode every access unit in Annex-B form gets to the remote's
    handler, in as many packets as it has NAL units, with the same NAL units and the
    keyframe flag they give it: provided that each of them is one that a packet can
    carry, and that they fit the remote's buffer with start codes of four bytes. A
    unit without that room is left out by the decoder, so the last condition is
    needed. The packets arrive in order and none is lost; their headers, and what
    the remote's codec has decoded before, are arbitrary. -/
theorem SingleNal.delivered (hpacketize : SingleNal mtu packetize) (hunpacketize : UnpacketsWhole unpacketize)
    (hlength : bits.length < 2 ^ 32) {p : Nat} (hcode : next_start_code bits 0 = some p)
    (hwhole : ∀ q, StartCode bits q → WholeUnit (cut bits q) ∧ (cut bits q).length ≤ mtu) {vc : vpt_codec}
    {out_size : UInt32} {output : pjmedia_frame} (hroom : DecodeRoom vc out_size output)
    (hfits : (join ((start_codes bits 0).map (cut bits))).length ≤ vc.dec_buf_size.toNat) {vpt : vpt_state}
    (hcb : vpt.cb.render_push = true) :
    ∃ payloads, Payloads packetize bits 0 payloads ∧ payloads.length = (nal_units bits).length ∧
      ∀ packets, packets.map RtpPacket.payload = payloads →
        ∃ d au, vc_decode vc vpt unpacketize packets out_size output = .ok d ∧ d.status = .PJ_SUCCESS ∧
          nal_units au = nal_units bits ∧ d.callbacks = [.render_push au (is_keyframe bits)] ∧
          d.output.type = .VIDEO ∧ d.output.buf.hdr.key = is_keyframe bits ∧
          d.output.buf.body.take d.output.buf.hdr.len.toNat = au := by
  obtain ⟨payloads, hpayloads⟩ := hpacketize.exists_payloads hlength (fun q hq => (hwhole q hq).2) 0
    (.inr ⟨p, hcode⟩)
  have hcuts := hpacketize.payloads hlength hpayloads (.inr ⟨p, hcode⟩)
  have hunits : ∀ payload ∈ payloads, WholeUnit payload := by
    intro payload hpayload
    rw [hcuts] at hpayload
    obtain ⟨q, hq, rfl⟩ := List.mem_map.mp hpayload
    exact (hwhole q (startCode_of_mem hq)).1
  have hreassembles : Reassembles unpacketize vc.dec_buf_size payloads bits :=
    hpacketize.reassembles hunpacketize hlength hcode hpayloads hunits (by rw [hcuts]; exact hfits)
  refine ⟨payloads, hpayloads, ?_, fun packets hpackets => ?_⟩
  · rw [hcuts, List.length_map, nal_units, length_units_at]
    rfl
  · obtain ⟨d, au, hdecode, hstatus, hunits, hcallbacks, htype, -, hkey, hbody, -⟩ :=
      vc_decode_delivers hroom hcb hreassembles hpackets (by
        rw [hcuts, UInt32.toNat_zero, start_codes_eq, hcode]
        exact List.cons_ne_nil _ _)
    exact ⟨d, au, hdecode, hstatus, hunits, hcallbacks, htype, hkey, hbody⟩

end SingleNal

/-- An unpacketizer that puts a payload behind a start code, where it fits. -/
def behind_code : Unpacketizer := fun payload bits pos =>
  if pos.toNat + 4 + payload.length ≤ bits.length then
    (.PJ_SUCCESS, bits.take pos.toNat ++ (START ++ payload) ++ bits.drop (pos.toNat + 4 + payload.length),
      UInt32.ofNat (pos.toNat + 4 + payload.length))
  else (.PJMEDIA_CODEC_EFRMTOOSHORT, bits, pos)

/-- There is such an unpacketizer: the one that puts each packet behind a start
    code. -/
theorem behind_code_whole : UnpacketsWhole behind_code where
  whole payload bits pos _ hsmall hfits := by
    have hpos : (UInt32.ofNat (pos.toNat + 4 + payload.length)).toNat = pos.toNat + 4 + payload.length :=
      UInt32.toNat_ofNat_of_lt' (by
        have : UInt32.size = 2 ^ 32 := rfl
        omega)
    exact ⟨_, hpos, by rw [behind_code, if_pos hfits, hpos]⟩

/-- An access unit of one slice, whose NAL unit header is `header`. -/
def slice (header : UInt8) : List UInt8 := [0, 0, 1, header, 0x9A]

/-- A codec with a buffer of six bytes, to decode with. -/
def slice_decoder : vpt_codec := { vc_alloc_codec with dec_buf := List.replicate 6 0, dec_buf_size := 6 }

theorem start_codes_slice {header : UInt8} (hheader : header = 0x41 ∨ header = 0x65) :
    start_codes (slice header) 0 = [0] := by
  rcases hheader with rfl | rfl <;> decide

/-- The only cut of a slice. -/
theorem cut_slice {header : UInt8} (hheader : header = 0x41 ∨ header = 0x65) {q : Nat}
    (hq : StartCode (slice header) q) : cut (slice header) q = [header, 0x9A] := by
  have hmem : q ∈ start_codes (slice header) 0 := by
    have hlength := hq.lt_length
    rw [start_codes, List.mem_filter, List.mem_range'_1]
    exact ⟨by omega, decide_eq_true hq⟩
  rw [start_codes_slice hheader, List.mem_singleton] at hmem
  subst hmem
  rcases hheader with rfl | rfl <;> decide +kernel

/-- An IDR slice gets to the remote, as a keyframe, in one packet. -/
theorem delivered_idr_slice :
    ∃ payloads, Payloads (single_nal 1400) (slice 0x65) 0 payloads ∧ payloads.length = 1 ∧
      ∀ packets, packets.map RtpPacket.payload = payloads →
        ∃ d au, vc_decode slice_decoder { vpt_state.zero with cb := { render_push := true } } behind_code packets 22
            (.zero 22) = .ok d ∧
          nal_units au = [[0x65, 0x9A]] ∧ d.callbacks = [.render_push au true] := by
  have hunits : nal_units (slice 0x65) = [[0x65, 0x9A]] := by decide
  have hcode : next_start_code (slice 0x65) 0 = some 0 := by decide +kernel
  have hlength : (slice 0x65).length < 2 ^ 32 := by decide
  have hwhole : ∀ q, StartCode (slice 0x65) q → WholeUnit (cut (slice 0x65) q) ∧ (cut (slice 0x65) q).length ≤ 1400 := by
    intro q hq
    rw [cut_slice (.inr rfl) hq]
    exact ⟨⟨Nat.le_refl _, _, rfl, by decide, by decide⟩, by decide⟩
  have hroom : DecodeRoom slice_decoder 22 (.zero 22) := ⟨by decide, by decide, by decide⟩
  have hfits : (join ((start_codes (slice 0x65) 0).map (cut (slice 0x65)))).length ≤ slice_decoder.dec_buf_size.toNat := by
    rw [start_codes_slice (.inr rfl), List.map_singleton, cut_slice (.inr rfl) (show StartCode (slice 0x65) 0 by decide)]
    decide
  have hcb : ({ vpt_state.zero with cb := { render_push := true } } : vpt_state).cb.render_push = true := rfl
  obtain ⟨payloads, hpayloads, hcount, hdelivered⟩ :=
    (single_nal_spec 1400).delivered behind_code_whole hlength hcode hwhole hroom hfits hcb
  refine ⟨payloads, hpayloads, by rw [hcount, hunits]; rfl, fun packets hpackets => ?_⟩
  obtain ⟨d, au, hdecode, -, hau, hcallbacks, -⟩ := hdelivered packets hpackets
  refine ⟨d, au, hdecode, hau.trans hunits, ?_⟩
  rw [hcallbacks, show is_keyframe (slice 0x65) = true by decide +kernel]

end pjsua_rust.video_passthrough
