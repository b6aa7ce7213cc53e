import PjsuaRust.Passthrough.Transport
import PjsuaRust.Pipeline.Drain

open pjsua_rust.video pjsua_rust.video_passthrough transition feeds annexb

namespace pjsua_rust.sending

/-- A turn of the stream, with the buffers it has for the packets after the
    first. -/
structure FullTurn extends Turn where
  calls : List (Nat × Output)

/-- No buffer of the turn is empty, and the bridge's is as large as the device
    says. -/
structure FullTurn.Fits (r : FullTurn) (vpt : vpt_state) : Prop extends r.toTurn.Fits vpt where
  calls : ∀ call ∈ r.calls, call.1 ≠ 0

/-- The stream calls `vc_encode_more` for as long as the call before says that
    there is more. There is no state where its buffers do not suffice. -/
def Pipeline.send_rest (packetize : Packetizer) :
    Pipeline → Bool → List (Nat × Output) → Option (Pipeline × List (List UInt8))
  | s, false, _ => some (s, [])
  | _, true, [] => none
  | s, true, (out_size, output) :: calls => do
    let vc ← s.codec
    let t ← s.step (.encode_more packetize out_size output)
    let e := vc_encode_more vc s.module.vpt packetize out_size output
    let (u, packets) ← send_rest packetize t e.has_more calls
    return (u, e.packets ++ packets)

/-- A whole turn: a poll, an encode of its buffer, and the packets it sends. -/
def Pipeline.turn (s : Pipeline) (r : FullTurn) : Option (Pipeline × List (List UInt8)) := do
  let u ← s.step (.poll r.buf)
  let vc ← u.codec
  let t ← u.step (.encode_begin r.force_keyframe r.packetize r.out_size r.output)
  match vc_encode_begin vc u.module.vpt (some u.shared) r.force_keyframe u.bridge r.packetize r.out_size r.output with
  | .error _ => none
  | .ok b =>
    let (v, packets) ← send_rest r.packetize t b.encoded.has_more r.calls
    return (v, b.encoded.packets ++ packets)

/-- Turn after turn, with the packets of each. -/
def Pipeline.call (s : Pipeline) : List FullTurn → Option (Pipeline × List (List (List UInt8)))
  | [] => some (s, [])
  | r :: turns => do
    let (t, packets) ← s.turn r
    let (u, wire) ← t.call turns
    return (u, packets :: wire)

/-- The remote decodes the packets of one access unit after the other. -/
def receive (vpt : vpt_state) (unpacketize : Unpacketizer) (out_size : UInt32) (output : pjmedia_frame) :
    vpt_codec → List (List RtpPacket) → Except Fault (vpt_codec × List Callback)
  | vc, [] => .ok (vc, [])
  | vc, packets :: wire => do
    let d ← vc_decode vc vpt unpacketize packets out_size output
    let (vc, callbacks) ← receive vpt unpacketize out_size output d.vc wire
    return (vc, d.callbacks ++ callbacks)

/-- What the two ends and PJMEDIA between them do with an access unit: it passes
    the check in single-NAL mode, the packetizer gets through it, its packets fit
    the stream's buffers, and the remote's unpacketizer puts them together. -/
structure Carried (vc : vpt_codec) (unpacketize : Unpacketizer) (size : UInt32) (r : FullTurn) (bits : List UInt8) :
    Prop where
  checked : oversized vc bits = false
  carried : ∃ payloads, Payloads r.packetize bits 0 payloads ∧ payloads.length ≤ r.calls.length + 1 ∧
    (∀ p ∈ payloads, p.length ≤ r.out_size ∧ ∀ call ∈ r.calls, p.length ≤ call.1) ∧
    Reassembles unpacketize size payloads bits

/-- What the packets after the first leave as it was. -/
structure Kept (size : Nat) (s : Pipeline) (vc : vpt_codec) (t : Pipeline) (vc' : vpt_codec) : Prop where
  ready : Ready size t vc'
  prm : vc'.prm = vc.prm
  enc_single_nal : vc'.enc_single_nal = vc.enc_single_nal
  framebytes : t.module.vpt.framebytes = s.module.vpt.framebytes
  waiting : t.waiting = s.waiting
  taken : t.taken = s.taken
  log : t.log = s.log
  keyed : t.keyed vc' = s.keyed vc

section

variable {size : Nat} {s t u : Pipeline} {vc vc' vc'' : vpt_codec}

theorem Kept.trans (h : Kept size s vc t vc') (h' : Kept size t vc' u vc'') : Kept size s vc u vc'' where
  ready := h'.ready
  prm := h'.prm.trans h.prm
  enc_single_nal := h'.enc_single_nal.trans h.enc_single_nal
  framebytes := h'.framebytes.trans h.framebytes
  waiting := h'.waiting.trans h.waiting
  taken := h'.taken.trans h.taken
  log := h'.log.trans h.log
  keyed := h'.keyed.trans h.keyed

/-- A packet more that goes out moves the codec on and changes nothing else: neither
    the queue nor what the codec knows of it, nor the epochs. -/
theorem Ready.more (hready : Ready size s vc) {packetize : Packetizer} {packet : Packet} {out_size : Nat}
    (hout : out_size ≠ 0) (hrest : ¬ vc.enc_len ≤ vc.enc_pos)
    (hpacket : packetize vc.access_unit vc.enc_pos = some packet) (hroom : packet.payload.length ≤ out_size)
    (output : Output) :
    ∃ t, s.step (.encode_more packetize out_size output) = some t ∧
      Kept size s vc t { vc with enc_pos := packet.pos } := by
  obtain ⟨f, hrep, hinv⟩ := hready.represents
  obtain ⟨-, -, hvc, hvpt, hfate⟩ := vc_encode_more_packet hout hrest hpacket hroom s.module.vpt output
  obtain ⟨t, hstep, hcodec, hmodule, hopen, htaken, hlog, haccepted⟩ : ∃ t,
      s.step (.encode_more packetize out_size output) = some t ∧ t.codec = some { vc with enc_pos := packet.pos } ∧
      t.module.vpt = s.module.vpt ∧ t.is_open = s.is_open ∧ t.taken = s.taken ∧ t.log = s.log ∧
      t.accepted = s.accepted := by
    simp only [Pipeline.step, hready.codec, hready.is_open, Pipeline.encode_more, hvc, hvpt, hfate]
    exact ⟨_, rfl, rfl, rfl, rfl, rfl, rfl, rfl⟩
  obtain ⟨hrep', hshared⟩ := hrep.encode_more hstep
  refine ⟨t, hstep, ⟨⟨f, hrep', hinv⟩, hopen.trans hready.is_open, hcodec, ?_, ?_⟩, rfl, rfl, ?_, ?_, htaken, hlog, ?_⟩
  · rw [hshared]
    exact hready.length
  · rw [hshared]
    exact hready.front
  · rw [hmodule]
  · rw [Pipeline.waiting, Pipeline.waiting, hshared, haccepted]
  · rw [Pipeline.keyed, Pipeline.keyed, hmodule]
    rfl

/-- The rest of an access unit goes out whole, in order. PJMEDIA must ask for it
    often enough, with buffers that the packets fit. -/
theorem Ready.send_rest (hready : Ready size s vc) {packetize : Packetizer} {bits : List UInt8}
    {payloads : List (List UInt8)} (haccess : vc.access_unit = bits) (hlen : vc.enc_len.toNat = bits.length)
    (hpayloads : Payloads packetize bits vc.enc_pos payloads) (calls : List (Nat × Output))
    (henough : payloads.length ≤ calls.length) (hcalls : ∀ call ∈ calls, call.1 ≠ 0)
    (hroom : ∀ p ∈ payloads, ∀ call ∈ calls, p.length ≤ call.1) :
    ∃ t vc', Pipeline.send_rest packetize s (vc.enc_pos < vc.enc_len) calls = some (t, payloads) ∧
      Kept size s vc t vc' := by
  generalize hpos : vc.enc_pos = pos at hpayloads
  induction hpayloads generalizing s vc calls with
  | done hdone =>
    have hmore : ¬ vc.enc_pos < vc.enc_len := by
      rw [UInt32.lt_iff_toNat_lt, hlen, hpos]
      omega
    rw [← hpos, decide_eq_false hmore, Pipeline.send_rest]
    exact ⟨s, vc, rfl, hready, rfl, rfl, rfl, rfl, rfl, rfl, rfl⟩
  | @next pos packet rest hrest hpacket hafter ih =>
    have hmore : vc.enc_pos < vc.enc_len := by
      rw [UInt32.lt_iff_toNat_lt, hlen, hpos]
      exact hrest
    have hnot : ¬ vc.enc_len ≤ vc.enc_pos := by
      rw [UInt32.le_iff_toNat_le, hlen, hpos]
      omega
    cases calls with
    | nil => exact absurd henough (by simp)
    | cons call calls =>
      obtain ⟨out_size, output⟩ := call
      have hfits := hroom packet.payload List.mem_cons_self (out_size, output) List.mem_cons_self
      have hout : out_size ≠ 0 := hcalls (out_size, output) List.mem_cons_self
      rw [← haccess, ← hpos] at hpacket
      obtain ⟨hpackets, hhas, -⟩ := vc_encode_more_packet hout hnot hpacket hfits s.module.vpt output
      obtain ⟨t, hstep, hkept⟩ := hready.more hout hnot hpacket hfits output
      obtain ⟨u, vc', hsent, hkept'⟩ := ih hkept.ready haccess hlen calls (by simpa using henough)
        (fun call hcall => hcalls call (List.mem_cons_of_mem _ hcall))
        (fun p hp call hcall => hroom p (List.mem_cons_of_mem _ hp) call (List.mem_cons_of_mem _ hcall)) rfl
      refine ⟨u, vc', ?_, hkept.trans hkept'⟩
      rw [← hpos, decide_eq_true hmore, Pipeline.send_rest, hready.codec]
      simp only [Option.bind_eq_bind, Option.bind_some, hstep, hhas, hpackets]
      rw [hsent]
      rfl

/-- What one whole turn does: take the front, if there is one, and send it, unless
    it waits for a keyframe. -/
structure Carries (size : Nat) (s : Pipeline) (vc : vpt_codec) (unpacketize : Unpacketizer) (dec_size : UInt32)
    (packets : List (List UInt8)) (t : Pipeline) (vc' : vpt_codec) : Prop where
  ready : Ready size t vc'
  prm : vc'.prm = vc.prm
  enc_single_nal : vc'.enc_single_nal = vc.enc_single_nal
  framebytes : t.module.vpt.framebytes = s.module.vpt.framebytes
  waiting : t.waiting = s.waiting.tail
  empty : s.waiting = [] → packets = [] ∧ t.log = s.log ∧ t.keyed vc' = s.keyed vc
  skipped : ∀ x ∈ s.waiting.head?, (s.keyed vc || x.frame.keyframe) = false →
    packets = [] ∧ t.log = s.log ∧ t.keyed vc' = false
  sent : ∀ x ∈ s.waiting.head?, (s.keyed vc || x.frame.keyframe) = true →
    packets ≠ [] ∧ Reassembles unpacketize dec_size packets x.frame.data ∧ t.log = .handed x :: s.log ∧
      t.keyed vc' = true

/-- A turn takes the front of the queue and makes packets of it that the remote can
    put together again, if it is sent at all. Only the frame at the front must be
    one that the two ends can carry. -/
theorem Ready.full_turn (hready : Ready size s vc) {r : FullTurn} (hfits : r.Fits s.module.vpt)
    {unpacketize : Unpacketizer} {dec_size : UInt32}
    (hcarried : ∀ x ∈ s.waiting.head?, Carried vc unpacketize dec_size r x.frame.data) :
    ∃ packets t vc', s.turn r = some (t, packets) ∧ Carries size s vc unpacketize dec_size packets t vc' := by
  obtain ⟨u, b, t, hturned⟩ := hready.turn hfits.toFits
  have hb : vc_encode_begin vc u.module.vpt (some u.shared) r.force_keyframe u.bridge r.packetize r.out_size r.output =
      .ok b := hturned.begins
  -- Once the first packet is known, the turn is the rest of them.
  have hturn {v : Pipeline} {packets rest : List (List UInt8)} (hfirst : b.encoded.packets ++ rest = packets)
      (hrest : Pipeline.send_rest r.packetize t b.encoded.has_more r.calls = some (v, rest)) :
      s.turn r = some (v, packets) := by
    have hbegun : u.step (.encode_begin r.force_keyframe r.packetize r.out_size r.output) = some t := hturned.begun
    simp only [Pipeline.turn, hturned.polled, hturned.codec, hbegun, hb, Option.bind_eq_bind, Option.bind_some, hrest,
      ← hfirst]
    rfl
  have hnothing (hfate : b.encoded.fate ≠ .packetized) : s.turn r = some (t, []) := by
    obtain ⟨hpackets, hmore⟩ := (vc_encode_begin_packets hb).1 hfate
    apply hturn (by rw [hpackets]; rfl)
    rw [hmore, Pipeline.send_rest]
  cases hw : s.waiting with
  | nil =>
    obtain ⟨hfate, hlog, hkeyed⟩ := hturned.empty hw
    refine ⟨[], t, b.encoded.vc, hnothing (by rw [hfate]; decide), hturned.ready, hturned.prm,
      hturned.enc_single_nal, hturned.framebytes, hturned.waiting, fun _ => ⟨rfl, hlog, hkeyed⟩, ?_, ?_⟩ <;>
    · rw [hw]
      intro y hy
      cases hy
  | cons x rest =>
    have hx : x ∈ s.waiting.head? := by
      rw [hw]
      rfl
    have hsome : s.waiting ≠ [] := hw ▸ List.cons_ne_nil x rest
    obtain ⟨hframe, hfate, hlog, hkeyed⟩ := hturned.front x hx
    obtain ⟨hchecked, payloads, hpayloads, henough, hroom, hwhole⟩ := hcarried x (by rw [hw]; rfl)
    have hnonempty : 0 < x.frame.data.length := by
      obtain ⟨f, hrep, hinv⟩ := hready.represents
      exact (hrep.polled_hdr_eq hinv hw).2.2.1
    cases hpayloads with
    | done hdone =>
      change x.frame.data.length ≤ 0 at hdone
      omega
    | @next _ packet payloads hrest hpacket hafter =>
    have haccepts : vc.refuses r.packetize x.frame.data = false := by
      rw [vpt_codec.refuses, hchecked, hpacket]
      rfl
    rw [haccepts] at hfate
    cases hgoes : s.keyed vc || x.frame.keyframe with
    | false =>
      have hskipped : b.encoded.fate = .skipped := by
        rw [hfate, fate, hgoes]
        rfl
      rw [hskipped] at hlog hkeyed
      refine ⟨[], t, b.encoded.vc, hnothing (by rw [hskipped]; decide), hturned.ready, hturned.prm,
        hturned.enc_single_nal, hturned.framebytes, hturned.waiting, fun hnil => absurd hnil hsome,
        fun _ _ _ => ⟨rfl, hlog, hkeyed⟩, ?_⟩
      intro y hy hgoes'
      cases Option.mem_unique hx hy
      rw [hgoes] at hgoes'
      cases hgoes'
    | true =>
      have hsent : b.encoded.fate = .packetized := by
        rw [hfate, fate, hgoes]
        rfl
      rw [hsent] at hlog hkeyed
      have hdata : u.bridge.access_unit = x.frame.data := congrArg Queued.data hframe
      obtain ⟨packet', hpacket', hpackets, hmore, hpos, haccess, hlen⟩ := (vc_encode_begin_packets hb).2 hsent (by
        rw [hdata]
        intro packet' hpacket'
        cases Option.mem_unique hpacket hpacket'
        exact (hroom _ List.mem_cons_self).1)
      rw [hdata, hpacket] at hpacket'
      cases hpacket'
      obtain ⟨v, vc', hsends, hkept⟩ := hturned.ready.send_rest haccess (by rw [hlen]) (by rw [hdata, hpos]; exact hafter)
        r.calls (by simpa using henough) hfits.calls fun p hp => (hroom p (List.mem_cons_of_mem _ hp)).2
      rw [hpos, ← hmore] at hsends
      refine ⟨packet.payload :: payloads, v, vc', hturn (by rw [hpackets]; rfl) hsends, hkept.ready,
        hkept.prm.trans hturned.prm, hkept.enc_single_nal.trans hturned.enc_single_nal,
        hkept.framebytes.trans hturned.framebytes, hkept.waiting.trans hturned.waiting,
        fun hnil => absurd hnil hsome, ?_, ?_⟩
      · intro y hy hgoes'
        cases Option.mem_unique hx hy
        rw [hgoes] at hgoes'
        cases hgoes'
      · intro y hy _
        cases Option.mem_unique hx hy
        exact ⟨List.cons_ne_nil _ _, hwhole, hkept.log.trans hlog, hkept.keyed.trans hkeyed⟩

/-- The frames that are sent of those that are queued: all from the first keyframe
    on. -/
def sendable (keyed : Bool) (waiting : List Accepted) : List Accepted :=
  waiting.dropWhile fun x => !keyed && !x.frame.keyframe

/-- The first keyframe opens the way for all that follows it. -/
theorem sendable_cons (keyed : Bool) (x : Accepted) (waiting : List Accepted) :
    sendable keyed (x :: waiting) =
      if keyed || x.frame.keyframe then x :: sendable true waiting else sendable false waiting := by
  have hall (l : List Accepted) : sendable true l = l := by cases l <;> rfl
  unfold sendable at hall ⊢
  rw [List.dropWhile_cons, hall]
  cases keyed <;> cases x.frame.keyframe <;> rfl

theorem FullTurn.Fits.congr {r : FullTurn} {vpt vpt' : vpt_state} (hfits : r.Fits vpt)
    (hbytes : vpt'.framebytes = vpt.framebytes) : r.Fits vpt' where
  toFits := hfits.toFits.congr hbytes
  calls := hfits.calls

theorem Carried.congr {unpacketize : Unpacketizer} {dec_size : UInt32} {r : FullTurn} {bits : List UInt8}
    (hcarried : Carried vc unpacketize dec_size r bits) (hprm : vc'.prm = vc.prm)
    (hsingle : vc'.enc_single_nal = vc.enc_single_nal) : Carried vc' unpacketize dec_size r bits :=
  ⟨(oversized_congr hprm hsingle bits).trans hcarried.checked, hcarried.carried⟩

/-- Turn after turn, the frames that may be sent are, each as packets that the
    remote can put together. -/
theorem Ready.call (hready : Ready size s vc) (turns : List FullTurn)
    (hturns : ∀ r ∈ turns, r.Fits s.module.vpt) {unpacketize : Unpacketizer} {dec_size : UInt32}
    (hcarried : ∀ p ∈ turns.zip s.waiting, Carried vc unpacketize dec_size p.1 p.2.frame.data) :
    ∃ t vc' wire, s.call turns = some (t, wire) ∧ Ready size t vc' ∧ t.waiting = s.waiting.drop turns.length ∧
      t.log = ((sendable (s.keyed vc) (s.waiting.take turns.length)).map Sent.handed).reverse ++ s.log ∧
      List.Forall₂ (fun packets x => Reassembles unpacketize dec_size packets x.frame.data ∧ packets ≠ [])
        (wire.filter (!·.isEmpty)) (sendable (s.keyed vc) (s.waiting.take turns.length)) := by
  induction turns generalizing s vc with
  | nil => exact ⟨s, vc, [], rfl, hready, rfl, rfl, .nil⟩
  | cons r turns ih =>
    obtain ⟨packets, u, vc', hturn, hcarries⟩ := hready.full_turn (hturns r List.mem_cons_self) fun x hx => by
      cases hw : s.waiting with
      | nil =>
        rw [hw] at hx
        cases hx
      | cons y rest =>
        rw [hw] at hx
        cases hx
        exact hcarried (r, x) (by rw [hw]; exact List.mem_cons_self)
    obtain ⟨t, vc'', wire, hcall, hready', hwaiting, hlog, hwire⟩ := ih hcarries.ready
      (fun r' hr' => (hturns r' (List.mem_cons_of_mem _ hr')).congr hcarries.framebytes)
      (fun p hp => by
        refine (hcarried p ?_).congr hcarries.prm hcarries.enc_single_nal
        rw [hcarries.waiting] at hp
        cases hw : s.waiting with
        | nil =>
          rw [hw] at hp
          simp at hp
        | cons x rest =>
          rw [hw, List.tail_cons] at hp
          exact List.mem_cons_of_mem _ hp)
    refine ⟨t, vc'', packets :: wire, ?_, hready', ?_, ?_⟩
    · simp only [Pipeline.call, hturn, hcall, Option.bind_eq_bind, Option.bind_some]
      rfl
    · rw [hwaiting, hcarries.waiting, List.drop_tail, List.length_cons]
    · rw [hcarries.waiting] at hlog hwire
      cases hw : s.waiting with
      | nil =>
        obtain ⟨rfl, hsame, hkeyed⟩ := hcarries.empty hw
        rw [hw, List.tail_nil, List.take_nil] at hlog hwire
        rw [List.take_nil]
        exact ⟨hlog.trans (by rw [hsame]; rfl), hwire⟩
      | cons x rest =>
        have hx : x ∈ s.waiting.head? := by
          rw [hw]
          rfl
        rw [hw, List.tail_cons] at hlog hwire
        rw [List.length_cons, List.take_succ_cons, sendable_cons]
        cases hgoes : s.keyed vc || x.frame.keyframe with
        | false =>
          obtain ⟨rfl, hsame, hkeyed⟩ := hcarries.skipped x hx hgoes
          rw [hkeyed] at hlog hwire
          rw [if_neg Bool.false_ne_true]
          exact ⟨hsame ▸ hlog, hwire⟩
        | true =>
          obtain ⟨hsome, hwhole, hsent, hkeyed⟩ := hcarries.sent x hx hgoes
          rw [hkeyed] at hlog hwire
          rw [if_pos rfl, List.map_cons, List.reverse_cons, List.append_assoc, List.singleton_append, ← hsent]
          refine ⟨hlog, ?_⟩
          have hkeep : (packets :: wire).filter (!·.isEmpty) = packets :: wire.filter (!·.isEmpty) := by
            cases packets with
            | nil => exact absurd rfl hsome
            | cons p packets => rfl
          rw [hkeep]
          exact .cons ⟨hwhole, hsome⟩ hwire

end

/-- What the remote's handler is given of the frames that are sent: for each, in
    order, an access unit with its NAL units and the keyframe flag they give it. -/
theorem receive_sent {vpt : vpt_state} (hcb : vpt.cb.render_push = true) {unpacketize : Unpacketizer} {dec_size : UInt32}
    {out_size : UInt32} {output : pjmedia_frame} {wire : List (List (List UInt8))} {sent : List Accepted}
    (hwire : List.Forall₂ (fun packets x => Reassembles unpacketize dec_size packets x.frame.data ∧ packets ≠ [])
      wire sent) {vc : vpt_codec} (hsize : vc.dec_buf_size = dec_size) (hroom : DecodeRoom vc out_size output)
    {received : List (List RtpPacket)} (hreceived : received.map (·.map RtpPacket.payload) = wire) :
    ∃ vc' callbacks, receive vpt unpacketize out_size output vc received = .ok (vc', callbacks) ∧
      List.Forall₂ (fun x callback => ∃ au, callback = .render_push au (is_keyframe x.frame.data) ∧
        nal_units au = nal_units x.frame.data) sent callbacks := by
  induction hwire generalizing vc received with
  | nil =>
    rw [List.map_eq_nil_iff] at hreceived
    rw [hreceived]
    exact ⟨vc, [], rfl, .nil⟩
  | @cons packets x wire sent hfirst hrest ih =>
    obtain ⟨packets', received, rfl, hpackets, hreceived⟩ := List.map_eq_cons_iff.mp hreceived
    obtain ⟨hwhole, hsome⟩ := hfirst
    rw [← hsize] at hwhole
    obtain ⟨d, au, hdecode, -, hunits, hcallbacks, -, -, -, -, hroom', hsize', -⟩ :=
      vc_decode_delivers hroom hcb hwhole hpackets hsome
    obtain ⟨vc', callbacks, hreceive, hrendered⟩ := ih (hsize'.trans hsize) hroom' hreceived
    refine ⟨vc', .render_push au (is_keyframe x.frame.data) :: callbacks, ?_, .cons ⟨au, rfl, hunits⟩ hrendered⟩
    simp only [receive, hdecode, hreceive, hcallbacks, bind, Except.bind]
    rfl

/-- In single-NAL mode an access unit in Annex-B form is carried, if its NAL units
    are such that a packet can carry one, the buffers of the turn hold packets up
    to the MTU, one for each NAL unit, and the remote's buffer the NAL units with
    start codes of four bytes. -/
theorem carried_of_single_nal {r : FullTurn} {mtu : Nat} (hpacketize : SingleNal mtu r.packetize)
    {unpacketize : Unpacketizer} (hunpacketize : UnpacketsWhole unpacketize) {bits : List UInt8}
    (hlength : bits.length < 2 ^ 32) {p : Nat} (hcode : next_start_code bits 0 = some p)
    (hwhole : ∀ q, StartCode bits q → WholeUnit (cut bits q) ∧ (cut bits q).length ≤ mtu)
    (hchecked : oversized vc bits = false) (hcalls : (start_codes bits 0).length ≤ r.calls.length + 1)
    (hout : mtu ≤ r.out_size ∧ ∀ call ∈ r.calls, mtu ≤ call.1) {size : UInt32}
    (hfits : (join ((start_codes bits 0).map (cut bits))).length ≤ size.toNat) :
    Carried vc unpacketize size r bits where
  checked := hchecked
  carried := by
    obtain ⟨payloads, hpayloads⟩ := hpacketize.exists_payloads hlength (fun q hq => (hwhole q hq).2) 0
      (.inr ⟨p, hcode⟩)
    have hcuts := hpacketize.payloads hlength hpayloads (.inr ⟨p, hcode⟩)
    have hunits : ∀ payload ∈ payloads, WholeUnit payload ∧ payload.length ≤ mtu := by
      intro payload hpayload
      rw [hcuts] at hpayload
      obtain ⟨q, hq, rfl⟩ := List.mem_map.mp hpayload
      exact hwhole q (startCode_of_mem hq)
    refine ⟨payloads, hpayloads, ?_, fun payload hpayload => ?_, ?_⟩
    · rw [hcuts, List.length_map]
      exact hcalls
    · have hle := (hunits payload hpayload).2
      exact ⟨hle.trans hout.1, fun call hcall => hle.trans (hout.2 call hcall)⟩
    · exact hpacketize.reassembles hunpacketize hlength hcode hpayloads (fun payload h => (hunits payload h).1)
        (by rw [hcuts]; exact hfits)

/-- From every state of a run in which the codec is open, over a network that
    loses nothing: what turns of the stream send of the queued frames, from the
    first keyframe on, the remote's handler is given, in order and each once, with
    the same NAL units, and with a keyframe flag that they give it, whatever flag
    the frame was pushed with. Each frame that is taken must be one that the two ends
    can carry (`Carried`; in single-NAL mode `carried_of_single_nal` says which are).
    Nothing is assumed of the frames behind those, nor of the remote's codec but its
    buffers. -/
theorem rendered_as_pushed {config : PassthroughConfig} {module : Module} (hinstalled : Installed config module)
    {s : Pipeline} (hreach : (pipeline config module).Reach Fresh s) {vc : vpt_codec} (hopen : s.is_open = true)
    (hcodec : s.codec = some vc) (hlength : s.shared.queue.frames.length ≤ 2 ^ 31)
    (hfront : ∀ q ∈ s.shared.queue.frames.head?, vc.enc_have_seq = true → q.id ≠ vc.enc_last_seq)
    {turns : List FullTurn} (hturns : ∀ r ∈ turns, r.Fits s.module.vpt) {vpt : vpt_state}
    (hcb : vpt.cb.render_push = true) {remote : vpt_codec} {out_size : UInt32} {output : pjmedia_frame}
    (hroom : DecodeRoom remote out_size output) {unpacketize : Unpacketizer}
    (hcarried : ∀ p ∈ turns.zip s.waiting, Carried vc unpacketize remote.dec_buf_size p.1 p.2.frame.data) :
    ∃ t wire, s.call turns = some (t, wire) ∧ t.shared.queue.frames = s.shared.queue.frames.drop turns.length ∧
      ∀ received : List (List RtpPacket), received.map (·.map RtpPacket.payload) = wire.filter (!·.isEmpty) →
        ∃ remote' callbacks, receive vpt unpacketize out_size output remote received = .ok (remote', callbacks) ∧
          List.Forall₂ (fun x callback => ∃ au, callback = .render_push au (is_keyframe x.frame.data) ∧
            nal_units au = nal_units x.frame.data)
            (sendable (s.keyed vc) (s.waiting.take turns.length)) callbacks := by
  have hready := Ready.of_reach hinstalled hreach hopen hcodec hlength hfront
  obtain ⟨t, vc', wire, hcall, hready', hwaiting, -, hwire⟩ := hready.call turns hturns hcarried
  refine ⟨t, wire, hcall, ?_, fun received hreceived => receive_sent hcb hwire rfl hroom hreceived⟩
  rw [hready'.frames_eq, hwaiting, hready.frames_eq, List.map_drop]

def slice_config : PassthroughConfig := { max_frame_size := 6 }

def slice_module : Module := (VideoPassthrough.install installs.start slice_config {}).2.module

/-- A slice of a picture that is no keyframe, and one of an IDR picture. -/
def two_slices : List PipelineOp :=
  [.alloc, .open sendrecv_param mode_1, .push_frame (slice 0x41) false, .push_frame (slice 0x65) true]

def slice_turn : FullTurn where
  buf := .zero 22
  force_keyframe := false
  packetize := single_nal 1400
  out_size := 1400
  output := {}
  calls := []

theorem two_slices_admitted :
    (pipeline slice_config slice_module).Admits Fresh (pipeline slice_config slice_module).start two_slices :=
  .cons rfl trivial <| .cons rfl trivial <| .cons rfl trivial <| .cons rfl trivial trivial

theorem slice_carried {vc : vpt_codec} (hsingle : vc.enc_single_nal = false) {header : UInt8}
    (hheader : header = 0x41 ∨ header = 0x65) : Carried vc behind_code 6 slice_turn (slice header) := by
  have hcode : next_start_code (slice header) 0 = some 0 := by
    rcases hheader with rfl | rfl <;> decide +kernel
  have hchecked : oversized vc (slice header) = false := by
    rw [oversized, hsingle]
    cases vc.prm <;> rfl
  have hlength : (slice header).length < 2 ^ 32 := Nat.lt_of_le_of_lt (Nat.le_refl 5) (by decide)
  have hwhole : ∀ q, StartCode (slice header) q →
      WholeUnit (cut (slice header) q) ∧ (cut (slice header) q).length ≤ 1400 := by
    intro q hq
    rw [cut_slice hheader hq]
    rcases hheader with rfl | rfl <;> exact ⟨⟨Nat.le_refl _, _, rfl, by decide, by decide⟩, by decide⟩
  have hcodes := start_codes_slice hheader
  have hpacketize : SingleNal 1400 slice_turn.packetize := single_nal_spec 1400
  apply carried_of_single_nal hpacketize behind_code_whole hlength hcode hwhole hchecked
  · rw [hcodes]
    exact Nat.le_refl 1
  · exact ⟨Nat.le_refl 1400, fun _ hcall => absurd hcall List.not_mem_nil⟩
  · rw [hcodes, List.map_singleton, cut_slice hheader (by rcases hheader with rfl | rfl <;> decide)]
    exact Nat.le_refl 6

/-- The remote is shown the IDR slice, as a keyframe, and not the slice in front of
    it. -/
theorem rendered_as_pushed_two_slices :
    ∃ s t vc wire, (pipeline slice_config slice_module).exec (pipeline slice_config slice_module).start two_slices =
        some s ∧ s.codec = some vc ∧ s.call [slice_turn, slice_turn] = some (t, wire) ∧
      ∀ received : List (List RtpPacket), received.map (·.map RtpPacket.payload) = wire.filter (!·.isEmpty) →
        ∃ remote au, receive { s.module.vpt with cb := { render_push := true } } behind_code 22 (.zero 22) vc received =
          .ok (remote, [.render_push au true]) ∧ nal_units au = nal_units (slice 0x65) := by
  obtain ⟨s, vc, x, y, hs, hopen, hcodec, hsize, hlength, hexact, hsingle, hlen, hfresh, hkeyed, hwaiting,
    hx, hy, hplain, hkey⟩ : ∃ s vc x y,
      (pipeline slice_config slice_module).exec (pipeline slice_config slice_module).start two_slices = some s ∧
      s.is_open = true ∧ s.codec = some vc ∧ vc.dec_buf_size = 6 ∧ vc.dec_buf.length = 6 ∧
      slice_turn.buf.Exact s.module.vpt ∧ vc.enc_single_nal = false ∧ s.shared.queue.frames.length ≤ 2 ^ 31 ∧
      vc.enc_have_seq = false ∧ s.keyed vc = false ∧ s.waiting = [x, y] ∧
      x.frame.data = slice 0x41 ∧ y.frame.data = slice 0x65 ∧ x.frame.keyframe = false ∧ y.frame.keyframe = true :=
    ⟨_, _, _, _, rfl, rfl, rfl, rfl, rfl, ⟨rfl, rfl⟩, rfl, by decide, rfl, rfl, rfl, rfl, rfl, rfl, rfl⟩
  have hcarried : ∀ p ∈ [slice_turn, slice_turn].zip s.waiting,
      Carried vc behind_code vc.dec_buf_size p.1 p.2.frame.data := by
    rw [hwaiting, hsize]
    rintro p (_ | ⟨_, _ | ⟨_, hp⟩⟩)
    · exact hx ▸ slice_carried hsingle (.inl rfl)
    · exact hy ▸ slice_carried hsingle (.inr rfl)
    · cases hp
  have hinstalled : Installed slice_config slice_module := ⟨⟨installs.start, {}, 0, _, rfl, rfl⟩, by decide⟩
  have hfront : ∀ q ∈ s.shared.queue.frames.head?, vc.enc_have_seq = true → q.id ≠ vc.enc_last_seq := by
    intro q _ hhave
    rw [hfresh] at hhave
    cases hhave
  have hbufs : ∀ r ∈ [slice_turn, slice_turn], r.Fits s.module.vpt := by
    intro r hr
    simp only [List.mem_cons, List.not_mem_nil, or_false, or_self] at hr
    rw [hr]
    exact ⟨⟨hexact, by decide⟩, fun _ hcall => absurd hcall List.not_mem_nil⟩
  have hcb : ({ s.module.vpt with cb := { render_push := true } } : vpt_state).cb.render_push = true := rfl
  have hroom : DecodeRoom vc 22 (.zero 22) :=
    ⟨by rw [hlength, hsize]; rfl, by rw [hsize]; decide, by rw [hsize]; decide⟩
  obtain ⟨t, wire, hcall, -, hreceive⟩ := rendered_as_pushed hinstalled
    (Machine.Reach.exec .start two_slices_admitted hs) hopen hcodec hlen hfront hbufs hcb hroom hcarried
  refine ⟨s, t, vc, wire, hs, hcodec, hcall, fun received hreceived => ?_⟩
  obtain ⟨remote, callbacks, hrendered, hsent⟩ := hreceive received hreceived
  have hsendable : sendable (s.keyed vc) (s.waiting.take 2) = [y] := by
    rw [hkeyed, hwaiting]
    simp [sendable, hplain, hkey]
  rw [show [slice_turn, slice_turn].length = 2 from rfl, hsendable] at hsent
  obtain ⟨callback, rest, ⟨au, hau, hunits⟩, hnone, rfl⟩ := List.forall₂_cons_left_iff.mp hsent
  cases hnone
  refine ⟨remote, au, ?_, hy ▸ hunits⟩
  rw [hrendered, hau, hy, show is_keyframe (slice 0x65) = true by decide +kernel]

end pjsua_rust.sending
