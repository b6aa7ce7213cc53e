import PjsuaRust.Concurrent.System
import PjsuaRust.Passthrough.EncodeBegin

open pjsua_rust.video pjsua_rust.video_passthrough transition gating

namespace pjsua_rust.concurrent

theorem set_codec_call (s : System) (c : Nat) (vc : vpt_codec) (stage : Stage) :
    (s.set_codec c vc stage).call c = { s.call c with vc := some vc, stage } :=
  Function.update_self c _ s.call

theorem encoded_call (s : System) (c : Nat) (vc : vpt_codec) (stage : Stage) (vpt : vpt_state) (log : List Passed) :
    (s.encoded c vc stage vpt log).call c = { s.call c with vc := some vc, stage } :=
  set_codec_call s c vc stage

/-- The frame is taken, the queue told, and the epochs read. The three steps can be
    taken one right after the other from every state in which the codec is idle and
    the bridge holds a frame that is new to it. -/
theorem exec_taken (config : PassthroughConfig) (vpt : vpt_state) {s : System} {c : Nat} {vc : vpt_codec}
    (hvc : (s.call c).vc = some vc) (hstage : (s.call c).stage = .idle) {hdr : au_hdr}
    (hinput : encode_input vc (s.call c).bridge = .ok (some hdr)) :
    ∃ t era, (system config vpt).exec s [.encode_begin c, .capture_consumed c, .read_epochs c] = some t ∧
      (t.call c).vc = some (encode_take vc hdr) ∧
      (t.call c).stage = .read { input := (s.call c).bridge, hdr, era } (read_epochs s.vpt).1
        (read_epochs s.vpt).2 s.clears ∧
      t.vpt = s.vpt ∧
      t.shared = if s.vpt.cb.capture_consumed then capture_consumed s.shared hdr.seq else s.shared := by
  obtain ⟨u, hu⟩ : ∃ u : Flight, u = { input := (s.call c).bridge, hdr, era := (s.call c).era } := ⟨_, rfl⟩
  have hbegin : s.step (.encode_begin c) = some (s.set_codec c (encode_take vc hdr) (.taken u)) := by
    simp only [System.step, hvc, hstage, hinput, hu]
  obtain ⟨t, hconsumed, hcall, hvpt, hclears, hshared⟩ : ∃ t,
      (s.set_codec c (encode_take vc hdr) (.taken u)).step (.capture_consumed c) = some t ∧
      t.call c = { s.call c with vc := some (encode_take vc hdr), stage := .consumed u } ∧ t.vpt = s.vpt ∧
      t.clears = s.clears ∧
      t.shared = if s.vpt.cb.capture_consumed then capture_consumed s.shared hdr.seq else s.shared := by
    simp only [System.step, set_codec_call, hu]
    exact ⟨_, rfl, by simp only [System.set_codec, System.set, Function.update_self], rfl, rfl, rfl⟩
  refine ⟨t.set_codec c (encode_take vc hdr) (.read u (read_epochs s.vpt).1 (read_epochs s.vpt).2 s.clears),
    (s.call c).era, ?_, ?_, ?_, hvpt, hshared⟩
  · simp only [Machine.exec_cons, Machine.exec_nil, system, hbegin, hconsumed, Option.bind_some]
    simp only [System.step, hcall, hvpt, hclears, Option.bind_some]
  · rw [set_codec_call]
  · rw [set_codec_call, hu]

/-- What the encoder left, with nothing else going on. -/
structure Leaves (s t : System) (c : Nat) (e : Encoded) : Prop where
  vc : (t.call c).vc = some e.vc
  stage : (t.call c).stage = .idle
  vpt : t.vpt = e.vpt
  shared : t.shared = s.shared

/-- The steps that follow do what `encode_send` does in one. The last step is there
    only where the packetizer refuses the access unit. -/
theorem exec_send (config : PassthroughConfig) (vpt : vpt_state) {s : System} {c : Nat} {vc : vpt_codec}
    {u : Flight} {epoch : UInt32} {keyed : Bool} {clears : Nat} (hvc : (s.call c).vc = some vc)
    (hstage : (s.call c).stage = .read u epoch keyed clears) (hlen : u.hdr.len ≠ 0) {packetize : Packetizer}
    {out_size : Nat} (hout : out_size ≠ 0) {output : Output} {e : Encoded}
    (hsend : encode_send vc s.vpt u.input u.hdr epoch keyed packetize out_size output = .ok e) :
    ∃ t refused, (refused = [] ∨ refused = [.drop_oversized c]) ∧
      (system config vpt).exec s (.encode_send c packetize out_size output :: refused) = some t ∧
      Leaves s t c e := by
  unfold encode_send at hsend
  obtain ⟨⟨send, vc'⟩, hready, hrest⟩ := except_bind_ok hsend
  obtain ⟨hspec, -⟩ := encode_ready_spec hready
  simp only [Machine.exec_cons, system, System.step, hvc, hstage, System.encode_send, hready, if_neg hout]
  cases send with
  | false =>
    cases hrest
    exact ⟨_, [], .inl rfl, rfl, by rw [set_codec_call]; rfl, by rw [set_codec_call], rfl, rfl⟩
  | true =>
    obtain ⟨-, hlen', hpos⟩ := hspec.sends rfl
    simp only [Bool.not_true, Bool.false_eq_true, if_false] at hrest
    by_cases hover : oversized vc' vc'.access_unit = true
    · rw [if_pos hover] at hrest
      cases hrest
      simp only [hover, if_true]
      exact ⟨_, [], .inl rfl, rfl, by rw [encoded_call], by rw [encoded_call], rfl, rfl⟩
    · rw [if_neg hover] at hrest
      simp only [hover, if_false, Bool.false_eq_true]
      generalize (if vc'.enc_key = true then set_keyed s.vpt epoch else s.vpt) = vpt' at hrest ⊢
      cases hrest
      clear hsend
      cases hpacket : packetize vc'.access_unit vc'.enc_pos with
      | some packet => exact ⟨_, [], .inl rfl, rfl, by rw [encoded_call], by rw [encoded_call], rfl, rfl⟩
      | none =>
        have hmore : vc_encode_more vc' vpt' packetize out_size { output with timestamp := u.input.timestamp } =
            drop_oversized vc' vpt' { output with timestamp := u.input.timestamp } := by
          unfold vc_encode_more
          rw [if_neg hout, if_neg (by rw [hlen', hpos]; exact fun h => hlen (UInt32.le_zero_iff.mp h))]
          simp only [hpacket]
        rw [hmore]
        let r := s.encoded c vc' .refused vpt' (s.handed_over c vc u epoch keyed clears :: s.log)
        have hdrop : r.step (.drop_oversized c) =
            some (r.encoded c (drop_oversized vc' vpt' {}).vc .idle (drop_oversized vc' vpt' {}).vpt r.log) := by
          simp only [r, System.step, encoded_call]
          rfl
        refine ⟨r.encoded c (drop_oversized vc' vpt' {}).vc .idle (drop_oversized vc' vpt' {}).vpt r.log,
          [.drop_oversized c], .inr rfl, ?_, by rw [encoded_call]; rfl, by rw [encoded_call], rfl, rfl⟩
        simp only [Machine.exec_cons, Option.bind_some, Machine.exec_nil]
        exact congrArg (Option.bind · some) hdrop

/-- The steps of a thread, taken one after the other, are `vc_encode_begin`: with no
    other thread in between, they leave the codec, the module and the queue as the
    function does. So the steps split the function, and add nothing to it. -/
theorem exec_encode_begin (config : PassthroughConfig) (vpt : vpt_state) {s : System} {c : Nat} {vc : vpt_codec}
    (hvc : (s.call c).vc = some vc) (hstage : (s.call c).stage = .idle) {force_keyframe : Bool}
    {packetize : Packetizer} {out_size : Nat} {output : Output} {b : Begun} {hdr : au_hdr}
    (hbegin : vc_encode_begin vc s.vpt (some s.shared) force_keyframe (s.call c).bridge packetize out_size output =
      .ok b) (hconsumed : b.consumed = some hdr) :
    ∃ t refused, (refused = [] ∨ refused = [.drop_oversized c]) ∧
      (system config vpt).exec s ([.encode_begin c, .capture_consumed c, .read_epochs c,
        .encode_send c packetize out_size output] ++ refused) = some t ∧
      (t.call c).vc = some b.encoded.vc ∧ t.vpt = b.encoded.vpt ∧ b.slot = some t.shared := by
  unfold vc_encode_begin at hbegin
  by_cases hout : out_size = 0
  · rw [if_pos hout] at hbegin
    cases hbegin
    cases hconsumed
  rw [if_neg hout] at hbegin
  obtain ⟨input, hinput, hrest⟩ := except_bind_ok hbegin
  cases input with
  | none =>
    cases hrest
    cases hconsumed
  | some hdr' =>
    obtain ⟨e, hsend, hrest⟩ := except_bind_ok hrest
    cases hrest
    obtain ⟨r, era, hexec, hrvc, hrstage, hrvpt, hrshared⟩ := exec_taken config vpt hvc hstage hinput
    have hlen := (encode_input_some hinput).len_ne_zero
    obtain ⟨t, refused, hrefused, hlast, hleaves⟩ := exec_send config vpt hrvc hrstage hlen hout
      (by rw [hrvpt]; exact hsend)
    refine ⟨t, refused, hrefused, ?_, hleaves.vc, hleaves.vpt, ?_⟩
    · change (system config vpt).exec s ([.encode_begin c, .capture_consumed c, .read_epochs c] ++
        (.encode_send c packetize out_size output :: refused)) = some t
      rw [Machine.exec_append, hexec]
      exact hlast
    · rw [hleaves.shared, hrshared]
      cases s.vpt.cb.capture_consumed <;> rfl

end pjsua_rust.concurrent
