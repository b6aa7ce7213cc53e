import PjsuaRust.AnnexB.StartCode
import PjsuaRust.Passthrough.EncodeBegin

open annexb pjsua_rust.video

namespace pjsua_rust.video_passthrough

/-- PJMEDIA's packetizer for packetization mode 0: it sends the NAL unit that is
    next as it is, or fails if that is over the MTU. -/
structure SingleNal (mtu : Nat) (packetize : Packetizer) : Prop where
  fails : ∀ bits pos, bits.length < 2 ^ 32 → (packetize bits pos = none ↔ mtu < unit_size bits pos.toNat)
  packet : ∀ bits pos packet, bits.length < 2 ^ 32 → packetize bits pos = some packet →
    packet.pos.toNat = unit_stop bits (unit_start bits pos.toNat) ∧
      packet.payload = (bits.drop (unit_start bits pos.toNat)).take (unit_size bits pos.toNat)

/-- The results of the calls of `vc_encode_more` that follow, with what the stream
    passes to each. -/
def encode_rest (vc : vpt_codec) (vpt : vpt_state) (packetize : Packetizer) : List (Nat × Output) → List Encoded
  | [] => []
  | (out_size, output) :: calls =>
    let e := vc_encode_more vc vpt packetize out_size output
    e :: encode_rest e.vc e.vpt packetize calls

/-- The codec has sent the access unit as far as `pos`. -/
structure SentTo (bits : List UInt8) (pos : Nat) (vc : vpt_codec) : Prop where
  access_unit : vc.access_unit = bits
  enc_len : vc.enc_len.toNat = bits.length
  enc_pos : vc.enc_pos.toNat = pos

section

variable {mtu : Nat} {packetize : Packetizer} {bits : List UInt8} {pos : Nat} {vc : vpt_codec}

theorem SentTo.length_lt (hsent : SentTo bits pos vc) : bits.length < 2 ^ 32 := by
  rw [← hsent.enc_len]
  exact UInt32.toNat_lt vc.enc_len

/-- Once the packetizer has taken all the bytes, nothing more is sent or dropped. -/
theorem SentTo.done (hsent : SentTo bits pos vc) (packetize : Packetizer) (hdone : bits.length ≤ pos)
    (vpt : vpt_state) (out_size : Nat) (output : Output) :
    (vc_encode_more vc vpt packetize out_size output).fate = .skipped ∧
      (vc_encode_more vc vpt packetize out_size output).vc = vc := by
  have hle : vc.enc_len ≤ vc.enc_pos := by
    rw [UInt32.le_iff_toNat_le, hsent.enc_len, hsent.enc_pos]
    exact hdone
  unfold vc_encode_more
  split
  · exact ⟨rfl, rfl⟩
  · exact ⟨rfl, rfl⟩

/-- A NAL unit over the MTU costs the access unit. -/
theorem SentTo.dropped (hpacketize : SingleNal mtu packetize) (hsent : SentTo bits pos vc) (hrest : pos < bits.length)
    (hsize : mtu < unit_size bits pos) (vpt : vpt_state) {out_size : Nat} (hout : out_size ≠ 0) (output : Output) :
    (vc_encode_more vc vpt packetize out_size output).fate = .dropped := by
  have hle : ¬ vc.enc_len ≤ vc.enc_pos := by
    rw [UInt32.le_iff_toNat_le, hsent.enc_len, hsent.enc_pos]
    omega
  have hnone : packetize vc.access_unit vc.enc_pos = none := by
    rw [hsent.access_unit, hpacketize.fails bits _ hsent.length_lt, hsent.enc_pos]
    exact hsize
  unfold vc_encode_more
  rw [if_neg hout, if_neg hle, hnone]
  rfl

/-- One within it is packetized, and the codec moves on to its end. What the packet
    is put into does not matter, as long as there is room for something. -/
theorem SentTo.packetized (hpacketize : SingleNal mtu packetize) (hsent : SentTo bits pos vc)
    (hrest : pos < bits.length) (hsize : unit_size bits pos ≤ mtu) (vpt : vpt_state) {out_size : Nat}
    (hout : out_size ≠ 0) (output : Output) :
    (vc_encode_more vc vpt packetize out_size output).fate = .packetized ∧
      SentTo bits (unit_stop bits (unit_start bits pos)) (vc_encode_more vc vpt packetize out_size output).vc := by
  have hle : ¬ vc.enc_len ≤ vc.enc_pos := by
    rw [UInt32.le_iff_toNat_le, hsent.enc_len, hsent.enc_pos]
    omega
  cases hpacket : packetize vc.access_unit vc.enc_pos with
  | none =>
    rw [hsent.access_unit, hpacketize.fails bits _ hsent.length_lt, hsent.enc_pos] at hpacket
    omega
  | some packet =>
    have hspec := hpacketize.packet bits vc.enc_pos packet hsent.length_lt
      (by rw [← hsent.access_unit]; exact hpacket)
    rw [hsent.enc_pos] at hspec
    unfold vc_encode_more
    rw [if_neg hout, if_neg hle, hpacket]
    dsimp only
    split
    · exact ⟨rfl, hsent.access_unit, hsent.enc_len, hspec.1⟩
    · exact ⟨rfl, hsent.access_unit, hsent.enc_len, hspec.1⟩

/-- Where what is left is at a start code, and every NAL unit left is within the
    MTU, no call drops the access unit. -/
theorem not_dropped_of_within (hpacketize : SingleNal mtu packetize) (calls : List (Nat × Output)) (vpt : vpt_state)
    (hsent : SentTo bits pos vc) (hnext : bits.length ≤ pos ∨ ∃ q, next_start_code bits pos = some q)
    (hwithin : UnitsWithin mtu bits pos) : ∀ e ∈ encode_rest vc vpt packetize calls, e.fate ≠ .dropped := by
  induction calls generalizing pos vc vpt with
  | nil => exact fun e he => absurd he List.not_mem_nil
  | cons call calls ih =>
    obtain ⟨out_size, output⟩ := call
    intro e he
    by_cases hout : out_size = 0
    · -- No room for a packet is no packet, and changes nothing.
      have hrefused : vc_encode_more vc vpt packetize out_size output = einval vc vpt output := if_pos hout
      rw [encode_rest, hrefused] at he
      rcases List.mem_cons.mp he with rfl | he
      · exact nofun
      · exact ih vpt hsent hnext hwithin e he
    rcases Nat.lt_or_ge pos bits.length with hrest | hdone
    · obtain ⟨q, hq⟩ := hnext.resolve_left (by omega)
      obtain ⟨hle, hcode⟩ := next_start_code_some hq
      have hstart := unit_start_of_some hq
      have hsize : unit_size bits pos ≤ mtu := by
        rw [unit_size, hstart]
        exact hwithin q hle hcode
      obtain ⟨hfate, hsent'⟩ := hsent.packetized hpacketize hrest hsize vpt hout output
      rw [hstart] at hsent'
      have hmoved := hcode.le_unit_stop
      rcases List.mem_cons.mp he with rfl | he
      · rw [hfate]
        exact nofun
      · refine ih _ hsent' ?_ (hwithin.mono (by omega)) e he
        cases hnext' : next_start_code bits (q + 3) with
        | none =>
          left
          rw [unit_stop, hnext']
        | some q' =>
          right
          exact ⟨q', (next_start_code_unit_stop hcode).trans hnext'⟩
    · obtain ⟨hfate, hvc⟩ := hsent.done packetize hdone vpt out_size output
      rcases List.mem_cons.mp he with rfl | he
      · rw [hfate]
        exact nofun
      · rw [hvc] at he
        exact ih _ hsent (.inl hdone) hwithin e he

/-- Where some NAL unit that is left is over the MTU, some call drops the access
    unit. -/
theorem dropped_of_over (hpacketize : SingleNal mtu packetize) {p : Nat} (hp : StartCode bits p)
    (hover : mtu < unit_stop bits (p + 3) - (p + 3)) (vpt : vpt_state) (hsent : SentTo bits pos vc) (hle : pos ≤ p) :
    ∃ calls, ∃ e ∈ encode_rest vc vpt packetize calls, e.fate = .dropped := by
  -- By induction on what is left of the access unit.
  induction hleft : bits.length - pos using Nat.strong_induction_on generalizing pos vc vpt with
  | _ left ih =>
    have hlength := hp.lt_length
    obtain ⟨q, hq, hqp⟩ := next_start_code_le hp hle
    obtain ⟨hposq, hcode⟩ := next_start_code_some hq
    have hstart := unit_start_of_some hq
    rcases Nat.lt_or_ge mtu (unit_size bits pos) with hsize | hsize
    · refine ⟨[(1, {})], _, List.mem_singleton_self _, ?_⟩
      exact hsent.dropped hpacketize (by omega) hsize vpt Nat.one_ne_zero {}
    · obtain ⟨-, hsent'⟩ := hsent.packetized hpacketize (by omega) hsize vpt Nat.one_ne_zero {}
      rw [hstart] at hsent'
      have hqp' : q < p := by
        rcases Nat.lt_or_eq_of_le hqp with hlt | rfl
        · exact hlt
        · rw [unit_size, hstart] at hsize
          omega
      have hstop : unit_stop bits (q + 3) ≤ p := by
        obtain ⟨q', hq', hq'p⟩ := next_start_code_le hp (hcode.apart hp hqp')
        rw [unit_stop, hq']
        exact unit_end_le.trans hq'p
      have hmoved := hcode.le_unit_stop
      obtain ⟨calls, e, he, hfate⟩ := ih (bits.length - unit_stop bits (q + 3)) (by omega)
        (vc_encode_more vc vpt packetize 1 {}).vpt hsent' hstop rfl
      exact ⟨(1, {}) :: calls, e, List.mem_cons_of_mem _ he, hfate⟩

end

/-- Every NAL unit but the first and the last is within `mtu` when all the zero
    bytes but one in front of the start code that follows it are counted. -/
def PaddingFits (mtu : Nat) (bits : List UInt8) : Prop :=
  ∀ first p q, next_start_code bits 0 = some first → first < p → StartCode bits p →
    next_start_code bits (p + 3) = some q →
    (trim_zeros bits (p + 3) q - (p + 3)) + (q - trim_zeros bits (p + 3) q - 1) ≤ mtu

section

variable {bits : List UInt8} {start stop : Nat}

/-- The packetizer's NAL unit keeps all but one of the zero bytes that
    `largest_nal` strips. -/
theorem unit_end_eq_trim (hle : start ≤ stop) (hcode : bits[start - 1]? ≠ some 0) :
    unit_end bits stop - start = (trim_zeros bits start stop - start) + (stop - trim_zeros bits start stop - 1) := by
  cases stop with
  | zero =>
    obtain rfl := Nat.le_zero.mp hle
    rw [unit_end, if_neg hcode]
    rfl
  | succ stop =>
    unfold unit_end trim_zeros
    rw [Nat.add_sub_cancel]
    by_cases hzero : bits[stop]? = some 0
    · have hlt : start < stop + 1 := by
        rcases Nat.lt_or_eq_of_le hle with hlt | rfl
        · exact hlt
        · exact absurd hzero hcode
      obtain ⟨hstart, hstop⟩ := trim_zeros_bounds bits (Nat.le_of_lt_succ hlt)
      rw [if_pos hzero, if_pos ⟨hlt, hzero⟩]
      omega
    · rw [if_neg hzero, if_neg (fun h => hzero h.2)]
      omega

/-- After the last start code the scan has nothing more to do. -/
theorem largest_nal_loop_done {i : Nat} (hnone : next_start_code bits i = none) (s : LargestNal) :
    largest_nal_loop bits i s = s := by
  fun_induction next_start_code bits i with
  | case1 i hlt hcode => cases hnone
  | case2 i hlt hcode ih =>
    rw [largest_nal_loop_skip hlt fun h => hcode ((start_code_iff hlt).mpr h)]
    exact ih hnone
  | case3 i hlt => exact largest_nal_loop_of_end hlt s

/-- The scan ends in the NAL unit behind the last start code, wherever it begins in
    front of that. -/
theorem largest_nal_loop_last {i p : Nat} (hle : i ≤ p) (hp : StartCode bits p)
    (hlast : next_start_code bits (p + 3) = none) (s : LargestNal) :
    (largest_nal_loop bits i s).start = p + 3 ∧ (largest_nal_loop bits i s).in_nal = true := by
  fun_induction largest_nal_loop bits i s with
  | case1 i s hlt hcode size largest ih =>
    rcases Nat.lt_or_eq_of_le hle with hlt' | rfl
    · exact ih (StartCode.apart ((start_code_iff hlt).mpr hcode) hp hlt')
    · rw [largest_nal_loop_done hlast]
      exact ⟨rfl, rfl⟩
  | case2 i s hlt hcode ih =>
    apply ih
    rcases Nat.lt_or_eq_of_le hle with hlt' | rfl
    · exact hlt'
    · exact absurd ((start_code_iff hlt).mp hp) hcode
  | case3 i s hlt =>
    have := hp.lt_length
    omega

/-- The last NAL unit is not larger than the largest one, with the bytes up to the
    end. -/
theorem last_le_largest_nal {p : Nat} (hp : StartCode bits p) (hlast : next_start_code bits (p + 3) = none) :
    bits.length - (p + 3) ≤ largest_nal bits := by
  obtain ⟨hstart, hin_nal⟩ := largest_nal_loop_last (Nat.zero_le p) hp hlast ⟨0, 0, false⟩
  unfold largest_nal
  dsimp only
  rw [hstart, hin_nal]
  split
  · exact Nat.le_refl _
  · rename_i hnot
    exact Nat.le_of_not_lt fun hlt => hnot ⟨rfl, hlt⟩

/-- What is left once the first packet is out is within the MTU exactly if the
    padding fits: the last NAL unit was checked as it is. -/
theorem units_within_iff {mtu : Nat} (hchecked : largest_nal bits ≤ mtu) :
    UnitsWithin mtu bits (unit_stop bits (unit_start bits 0)) ↔ PaddingFits mtu bits := by
  constructor
  · intro hwithin first p q hfirst hlt hp hq
    have hcode := (next_start_code_some hfirst).2
    obtain ⟨q', hq', hq'p⟩ := next_start_code_le hp (hcode.apart hp hlt)
    have hstop : unit_stop bits (unit_start bits 0) ≤ p := by
      rw [unit_start_of_some hfirst, unit_stop, hq']
      exact unit_end_le.trans hq'p
    have hsize := hwithin p hstop hp
    have hone : bits[p + 3 - 1]? ≠ some 0 := by
      rw [show p + 3 - 1 = p + 2 from rfl, hp.2.2]
      exact nofun
    rw [unit_stop, hq] at hsize
    rw [← unit_end_eq_trim (next_start_code_some hq).1 hone]
    exact hsize
  · intro hfits p hle hp
    cases hq : next_start_code bits (p + 3) with
    | none =>
      rw [unit_stop, hq]
      exact (last_le_largest_nal hp hq).trans hchecked
    | some q =>
      obtain ⟨first, hfirst, hfirstp⟩ := next_start_code_le hp (Nat.zero_le p)
      have hcode := (next_start_code_some hfirst).2
      have hlt : first < p := by
        rw [unit_start_of_some hfirst] at hle
        have := hcode.le_unit_stop
        omega
      have hone : bits[p + 3 - 1]? ≠ some 0 := by
        rw [show p + 3 - 1 = p + 2 from rfl, hp.2.2]
        exact nofun
      rw [unit_stop, hq]
      dsimp only
      rw [unit_end_eq_trim (next_start_code_some hq).1 hone]
      exact hfits first p q hfirst hlt hp hq

end

/-- The access unit a frame of the capture device carries. -/
def pjmedia_frame.access_unit (input : pjmedia_frame) : List UInt8 := input.buf.body.take input.buf.hdr.len.toNat

section

variable {vc : vpt_codec} {vpt : vpt_state} {slot : Option Shared} {force_keyframe : Bool} {input : pjmedia_frame}
  {packetize : Packetizer} {out_size : Nat} {output : Output} {b : Begun} {prm : pjmedia_vid_codec_param}

/-- An access unit that was given to the packetizer passed the check: its largest
    NAL unit is within the MTU, as the scanner measures it, and the codec stands
    behind the first one. -/
theorem encode_send_packetized {hdr : au_hdr} {epoch : UInt32} {keyed : Bool} {e : Encoded}
    (hprm : vc.prm = some prm) (hsingle : vc.enc_single_nal = true) (hpacketize : SingleNal prm.enc_mtu.toNat packetize)
    (hout : out_size ≠ 0) (hsend : encode_send vc vpt input hdr epoch keyed packetize out_size output = .ok e)
    (hfirst : e.fate = .packetized) :
    largest_nal (input.buf.body.take hdr.len.toNat) ≤ prm.enc_mtu.toNat ∧
      SentTo (input.buf.body.take hdr.len.toNat)
        (unit_stop (input.buf.body.take hdr.len.toNat) (unit_start (input.buf.body.take hdr.len.toNat) 0)) e.vc := by
  unfold encode_send at hsend
  obtain ⟨⟨send, vc'⟩, hready, hrest⟩ := except_bind_ok hsend
  obtain ⟨hspec, hcopied⟩ := encode_ready_spec hready
  cases send with
  | false =>
    cases hrest
    cases hfirst
  | true =>
    obtain ⟨haccess, hlength⟩ := hcopied rfl
    obtain ⟨-, -, hpos⟩ := hspec.sends rfl
    dsimp only at hrest
    rw [Bool.not_true, if_neg Bool.false_ne_true] at hrest
    have hlarge : oversized vc' vc'.access_unit =
        decide (prm.enc_mtu.toNat < largest_nal (input.buf.body.take hdr.len.toNat)) := by
      rw [oversized, (hspec.keeps vpt).prm, hprm, hspec.enc_single_nal, hsingle, haccess]
      exact Bool.true_and _
    split at hrest
    · cases hrest
      cases hfirst
    rename_i hchecked
    rw [hlarge, decide_eq_true_eq, Nat.not_lt] at hchecked
    refine ⟨hchecked, ?_⟩
    have hsent : SentTo (input.buf.body.take hdr.len.toNat) 0 vc' := by
      refine ⟨haccess, ?_, ?_⟩
      · rw [← hlength, haccess]
      · rw [hpos]
        rfl
    cases hrest
    rcases Nat.lt_or_ge 0 (input.buf.body.take hdr.len.toNat).length with hrest | hdone
    · rcases Nat.lt_or_ge prm.enc_mtu.toNat (unit_size (input.buf.body.take hdr.len.toNat) 0) with hsize | hsize
      · rw [hsent.dropped hpacketize hrest hsize _ hout] at hfirst
        cases hfirst
      · exact (hsent.packetized hpacketize hrest hsize _ hout _).2
    · rw [(hsent.done packetize hdone _ _ _).1] at hfirst
      cases hfirst

/-- Once the first packet of an access unit is out in single-NAL mode, none of it is
    dropped later exactly if its padding fits: the check before the first packet
    strips all the zero bytes in front of a start code, the packetizer one. The
    access unit is any byte string, and the later packets are asked for in any
    number of calls, with whatever outcome each; of the packetizer it is assumed
    that it cuts out single NAL units. -/
theorem vc_encode_begin_all_or_nothing_iff (hprm : vc.prm = some prm) (hsingle : vc.enc_single_nal = true)
    (hpacketize : SingleNal prm.enc_mtu.toNat packetize)
    (hbegin : vc_encode_begin vc vpt slot force_keyframe input packetize out_size output = .ok b)
    (hfirst : b.encoded.fate = .packetized) :
    (∀ calls, ∀ e ∈ encode_rest b.encoded.vc b.encoded.vpt packetize calls, e.fate ≠ .dropped) ↔
      PaddingFits prm.enc_mtu.toNat input.access_unit := by
  unfold vc_encode_begin at hbegin
  by_cases hout : out_size = 0
  · rw [if_pos hout] at hbegin
    cases hbegin
    cases hfirst
  rw [if_neg hout] at hbegin
  dsimp only at hbegin
  obtain ⟨r, hinput, hrest⟩ := except_bind_ok hbegin
  cases r with
  | none =>
    cases hrest
    cases hfirst
  | some hdr =>
    obtain ⟨e, hsend, hrest⟩ := except_bind_ok hrest
    cases hrest
    obtain rfl := (encode_input_some hinput).hdr_eq
    have hprm' : (encode_take vc input.buf.hdr).prm = some prm := hprm
    obtain ⟨hchecked, hsent⟩ := encode_send_packetized hprm' hsingle hpacketize hout hsend hfirst
    change _ ↔ PaddingFits _ (input.buf.body.take input.buf.hdr.len.toNat)
    rw [← units_within_iff hchecked]
    constructor
    · intro hkept p hle hp
      by_contra hover
      obtain ⟨calls, e', he', hdropped⟩ :=
        dropped_of_over hpacketize hp (Nat.lt_of_not_le hover) e.vpt hsent hle
      exact hkept calls e' he' hdropped
    · intro hwithin calls
      refine not_dropped_of_within hpacketize calls e.vpt hsent ?_ hwithin
      cases hfirst' : next_start_code (input.buf.body.take input.buf.hdr.len.toNat) 0 with
      | none =>
        left
        rw [unit_start, hfirst']
        dsimp only
        rw [unit_stop, hfirst']
      | some first =>
        have hcode := (next_start_code_some hfirst').2
        rw [unit_start_of_some hfirst', next_start_code_unit_stop hcode]
        cases hsecond : next_start_code (input.buf.body.take input.buf.hdr.len.toNat) (first + 3) with
        | none =>
          left
          rw [unit_stop, hsecond]
        | some q => exact .inr ⟨q, rfl⟩

end

/-- A packetizer that does what is expected of PJMEDIA's in this mode. -/
def single_nal (mtu : Nat) : Packetizer := fun bits pos =>
  let start := unit_start bits pos.toNat
  let stop := unit_stop bits start
  if mtu < stop - start then none
  else some { pos := UInt32.ofNat stop, payload := (bits.drop start).take (stop - start) }

/-- There is such a packetizer: the one that cuts at start codes. So the assumption
    on PJMEDIA's, which is not part of the source, is not an empty one. -/
theorem single_nal_spec (mtu : Nat) : SingleNal mtu (single_nal mtu) where
  fails bits pos _ := by
    unfold single_nal
    dsimp only
    by_cases hsize : mtu < unit_size bits pos.toNat
    · rw [if_pos (by exact hsize)]
      exact iff_of_true rfl hsize
    · rw [if_neg (by exact hsize)]
      exact iff_of_false nofun hsize
  packet bits pos packet hlength hpacket := by
    unfold single_nal at hpacket
    dsimp only at hpacket
    split at hpacket
    · cases hpacket
    · cases hpacket
      refine ⟨?_, rfl⟩
      have hstop : unit_stop bits (unit_start bits pos.toNat) ≤ bits.length := unit_stop_le_length
      exact UInt32.toNat_ofNat_of_lt' (by
        have : UInt32.size = 2 ^ 32 := rfl
        omega)

/-- An MTU of two bytes. -/
def single_nal_param : pjmedia_vid_codec_param where
  dir := ⟨true, false⟩
  width := 64
  height := 64
  avg_bps := 1
  max_bps := 1
  enc_mtu := 2

/-- A codec in single-NAL mode with room for 32 bytes. -/
def single_nal_codec : vpt_codec :=
  { vc_alloc_codec with
    prm := some single_nal_param
    enc_buf := List.replicate 32 0
    enc_single_nal := true }

/-- A keyframe in a buffer of its size. -/
def key_frame (au : List UInt8) : pjmedia_frame where
  type := .VIDEO
  bit_info := 0
  timestamp := 0
  size := AU_HDR_SIZE + au.length
  buf := {
    cap := AU_HDR_SIZE + au.length
    hdr := { magic := AU_MAGIC, seq := 1, len := UInt32.ofNat au.length, flags := AU_FLAG_KEYFRAME }
    body := au
    length_body := (Nat.add_sub_cancel_left _ _).symm }

/-- Three NAL units, of 1, 2 and 1 bytes, with four-byte start codes. -/
def plain_units : List UInt8 := [0, 0, 0, 1, 0x65, 0, 0, 0, 1, 0x41, 0x42, 0, 0, 0, 1, 0x43]

/-- The same with one more zero byte in front of the last start code. -/
def padded_units : List UInt8 := [0, 0, 0, 1, 0x65, 0, 0, 0, 1, 0x41, 0x42, 0, 0, 0, 0, 1, 0x43]

def begin_units (au : List UInt8) : Except Fault Begun :=
  vc_encode_begin single_nal_codec .zero none false (key_frame au) (single_nal 2) 1400 {}

/-- What became of the access unit, and of it in one later call. -/
def fates : Except Fault Begun → Fate × List Fate
  | .ok b => (b.encoded.fate,
      (encode_rest b.encoded.vc b.encoded.vpt (single_nal 2) [(1400, {})]).map (·.fate))
  | .error _ => (.skipped, [])

theorem begun_of_fates {r : Except Fault Begun} {later : List Fate} (h : fates r = (.packetized, later)) :
    ∃ b, r = .ok b ∧ b.encoded.fate = .packetized ∧
      (encode_rest b.encoded.vc b.encoded.vpt (single_nal 2) [(1400, {})]).map (·.fate) = later := by
  cases r with
  | error e => cases h
  | ok b =>
    obtain ⟨hfate, hlater⟩ := Prod.mk.inj h
    exact ⟨b, rfl, hfate, hlater⟩

/-- Two NAL units with no padding between them. -/
theorem vc_encode_begin_all_or_nothing_iff_plain :
    ∃ b, begin_units plain_units = .ok b ∧
      ((∀ calls, ∀ e ∈ encode_rest b.encoded.vc b.encoded.vpt (single_nal 2) calls, e.fate ≠ .dropped) ↔
        PaddingFits 2 (key_frame plain_units).access_unit) := by
  have hfates : fates (begin_units plain_units) = (.packetized, [.packetized]) := by decide +kernel
  obtain ⟨b, hbegin, hfirst, -⟩ := begun_of_fates hfates
  have hprm : single_nal_codec.prm = some single_nal_param := rfl
  have hpacketize : SingleNal single_nal_param.enc_mtu.toNat (single_nal 2) := single_nal_spec 2
  exact ⟨b, hbegin, vc_encode_begin_all_or_nothing_iff hprm rfl hpacketize hbegin hfirst⟩

/-- One zero byte more, and the second NAL unit is over the MTU only for the
    packetizer. -/
theorem not_vc_encode_begin_all_or_nothing :
    ¬ ∀ (vc : vpt_codec) (prm : pjmedia_vid_codec_param) (vpt : vpt_state) (slot : Option Shared) (force : Bool)
      (input : pjmedia_frame) (packetize : Packetizer) (out_size : Nat) (output : Output) (b : Begun),
      vc.prm = some prm → vc.enc_single_nal = true → SingleNal prm.enc_mtu.toNat packetize →
      vc_encode_begin vc vpt slot force input packetize out_size output = .ok b →
      b.encoded.fate = .packetized →
      ∀ calls, ∀ e ∈ encode_rest b.encoded.vc b.encoded.vpt packetize calls, e.fate ≠ .dropped := by
  intro hclaim
  have hfates : fates (begin_units padded_units) = (.packetized, [.dropped]) := by decide +kernel
  obtain ⟨b, hbegin, hfirst, hlater⟩ := begun_of_fates hfates
  have hkept := hclaim single_nal_codec single_nal_param .zero none false _ _ 1400 {} b rfl rfl (single_nal_spec 2)
    hbegin hfirst
    [(1400, {})]
  have hin : Fate.dropped ∈ (encode_rest b.encoded.vc b.encoded.vpt (single_nal 2) [(1400, {})]).map (·.fate) := by
    rw [hlater]
    exact List.mem_singleton_self _
  obtain ⟨e, he, hdropped⟩ := List.mem_map.mp hin
  exact hkept e he hdropped

end pjsua_rust.video_passthrough
