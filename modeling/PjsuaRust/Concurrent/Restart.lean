import PjsuaRust.Concurrent.Refines
import PjsuaRust.Pipeline.Order

open pjsua_rust.video pjsua_rust.video_passthrough pjsua_rust.sending transition gating

namespace pjsua_rust.concurrent

/-- The restart takes an epoch that is not remembered from before the counter
    wrapped: no keyframe was sent in it, no codec has sent one in it, and none is
    about to send having read it. -/
def NewEpoch (s : System) (epoch : UInt32) : Prop :=
  epoch ≠ s.vpt.keyed_epoch ∧ ∀ c vc, (s.call c).vc = some vc →
    (vc.enc_epoch = epoch → vc.enc_sent_key = false) ∧
      ∀ u read keyed clears, (s.call c).stage = .read u read keyed clears → read = epoch →
        sent_key vc read keyed = false ∧ u.hdr.key = false ∨ (item vc u).oversize = true

/-- The condition on a step. The epochs are read with no keyframe from before
    the latest clear in hand, unless its codec has sent one in the epoch, or no
    codec has to wait for one, or the packetizer would not be given it. What
    follows finds `keyed_epoch` as it was read, where the keyframe in hand is from
    before the read and the epoch still that of the source. -/
def NoStaleKey (s : System) : SystemOp → Prop
  | .clear => NewEpoch s (pjrs_vpt_source_restarted s.vpt).source_epoch
  | .read_epochs c => ∀ vc u, (s.call c).vc = some vc → (s.call c).stage = .consumed u → u.hdr.key = true →
      s.clears ≤ u.era ∨ sent_key vc s.vpt.source_epoch (s.vpt.keyed_epoch == s.vpt.source_epoch) = true ∨
        (item vc u).oversize = true
  | .encode_send c .. => ∀ vc u epoch keyed clears, (s.call c).vc = some vc →
      (s.call c).stage = .read u epoch keyed clears → u.hdr.key = true →
      clears ≤ u.era ∨ epoch ≠ s.vpt.source_epoch ∨ s.vpt.keyed_epoch = epoch ∨ (item vc u).oversize = true
  | _ => True

/-- No keyframe was sent when the passthrough was installed, and no codec is
    open, so the gates start closed. -/
theorem gates_start {config : PassthroughConfig} {vpt : vpt_state} (hkeyed : vpt.keyed_epoch = 0) :
    (system config vpt).start.gates = (gates 0 vpt.source_epoch).start := by
  simp only [system, gates, System.gates, Call.gate, hkeyed]

/-- What goes to the packetizer is not oversized, so the condition says that a
    keyframe from before the read makes no epoch known. -/
theorem NoStaleKey.fresh {s : System} {c : Nat} {packetize : Packetizer} {out_size : Nat} {output : Output}
    (hstale : NoStaleKey s (.encode_send c packetize out_size output)) {x : Item} {epoch : UInt32} {keyed : Bool}
    {era : Nat} (hphase : (s.gates.gate c).phase = .checked x epoch keyed era)
    (hlets : (s.gates.gate c).lets x epoch keyed = true) : Fresh s.gates c := by
  intro y epoch' keyed' era' hsame hkey
  rw [hphase] at hsame
  cases hsame
  obtain ⟨vc, u, hvc, hstage, rfl⟩ := checked_inv hphase
  rcases hstale vc u _ _ _ hvc hstage hkey with hnew | hsource | hknown | hlarge
  · exact .inl hnew
  · exact .inr (.inl hsource)
  · exact .inr (.inr hknown)
  · rw [Gate.lets, hlarge, Bool.not_true, Bool.and_false] at hlets
    cases hlets

/-- A frame goes through one `vc_encode_begin`, step by step. -/
def encode_steps (c : Nat) : List SystemOp :=
  [.encode_begin c, .capture_consumed c, .read_epochs c, .encode_send c whole 1400 {}]

end pjsua_rust.concurrent
