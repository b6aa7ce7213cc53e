import PjsuaRust.Passthrough.Reconfigure
import PjsuaRust.Transition.Machine
import PjsuaRust.Video.Callbacks
import PjsuaRust.Video.Config

open pjsua_rust.video_passthrough transition

namespace pjsua_rust.video

/-- The state behind a fresh `VideoPassthrough`. -/
def Shared.new (config : PassthroughConfig) : Shared where
  queue := { frames := [], next_id := 1, need_keyframe := false }
  max_queue := max config.max_queue 1
  max_frame_size := config.max_frame_size

/-- The callbacks `install` hands to C: all of them. -/
def install_callbacks : pjrs_vpt_callbacks where
  capture_peek := true
  capture_consumed := true
  keyframe_request := true
  encoder_open := true
  encoder_close := true
  render_push := true

/-- `check_status`: an error carries the status. -/
def check_status (status : pj_status_t) : Except pj_status_t Unit :=
  if status = .PJ_SUCCESS then .ok () else .error status

/-- The process-wide state. `arcs` are the `Arc<Shared>`s made so far, each with
    its own queue and handler, and `SHARED` names the one the callbacks from C
    serve. `live` names the one behind the handle of the install that succeeded
    on this `PjsuaApp`. -/
structure Process where
  arcs : List Shared
  SHARED : Option Nat
  module : Module
  live : Option Nat
deriving DecidableEq, Repr

/-- `shared()`: what the callbacks from C see. -/
def Process.shared (p : Process) : Option Shared := p.SHARED.bind fun k => p.arcs[k]?

/-- `VideoPassthrough::install`, with the place of its `Arc` on success. -/
def VideoPassthrough.install (p : Process) (config : PassthroughConfig) (out : InitOutcome) :
    Except pj_status_t Nat × Process :=
  let shared := p.arcs.length
  let p := { p with arcs := p.arcs ++ [Shared.new config], SHARED := some shared }
  let (status, module) := pjrs_vpt_init p.module (c_config config) install_callbacks out
  match check_status status with
  | .error e => (.error e, { p with module, SHARED := none })
  | .ok () => (.ok shared, { p with module, live := some shared })

/-- `VideoPassthrough::reconfigure`. The length of the queue changes only once C
    has taken the rest. -/
def VideoPassthrough.reconfigure (self : Shared) (m : Module) (config : PassthroughConfig)
    (out : ReconfigureOutcome) : Except pj_status_t Unit × Shared × Module :=
  let (status, m) := pjrs_vpt_reconfigure m (c_config config) out
  match check_status status with
  | .error e => (.error e, self, m)
  | .ok () => (.ok (), { self with max_queue := max config.max_queue 1 }, m)

/-- `pjsua_destroy`, as far as it concerns this module: the codec manager goes,
    then the device factory is destroyed. -/
def Process.pjsua_destroy (p : Process) : Process :=
  { p with
    module := { vd_factory_destroy p.module with codec_registered := false, dev_registered := false }
    live := none }

/-- A reconfiguration changes no size. The configuration that it puts in force has
    the old one's, or the call is refused. -/
theorem VideoPassthrough.reconfigure_sizes (self : Shared) (m : Module) (config : PassthroughConfig)
    (out : ReconfigureOutcome) :
    (VideoPassthrough.reconfigure self m config out).2.1.queue = self.queue ∧
      (VideoPassthrough.reconfigure self m config out).2.1.max_frame_size = self.max_frame_size ∧
      (VideoPassthrough.reconfigure self m config out).2.2.vpt.cfg.max_frame_size =
        m.vpt.cfg.max_frame_size ∧
      ∃ cfg, (VideoPassthrough.reconfigure self m config out).2.2.vpt = m.vpt ∨
        (VideoPassthrough.reconfigure self m config out).2.2.vpt = replace_cfg m.vpt cfg := by
  have hvpt := pjrs_vpt_reconfigure_vpt m (c_config config) out
  unfold VideoPassthrough.reconfigure
  cases hreconfigure : pjrs_vpt_reconfigure m (c_config config) out with
  | mk status m' =>
    rw [hreconfigure] at hvpt
    dsimp only at hvpt ⊢
    have hsize : m'.vpt.cfg.max_frame_size = m.vpt.cfg.max_frame_size := by
      rcases hvpt with heq | ⟨hsize, heq⟩
      · rw [heq]
      · rw [heq]
        exact hsize
    cases check_status status <;>
      exact ⟨rfl, rfl, hsize, c_config config, hvpt.imp_right And.right⟩

inductive ProcessOp where
  | install (config : PassthroughConfig) (out : InitOutcome)
  | destroy

/-- Installs and destroys in any order, from a process that has done nothing. -/
def installs : Machine Process ProcessOp where
  start := { arcs := [], SHARED := none, module := .zero, live := none }
  step p
    | .install config out => some (VideoPassthrough.install p config out).2
    | .destroy => some p.pjsua_destroy

/-- The slot and the C module are as they were, and C's callbacks are served by
    the passthrough installed earlier. -/
structure Undisturbed (p p' : Process) : Prop where
  slot : p'.SHARED = p.SHARED
  module : p'.module = p.module
  serves : p'.SHARED = p.live

/-- An install is live only while the C module is initialised. It is live from its
    success on, whatever later installs come to, until PJSUA ends. -/
theorem inited_of_live {p : Process} (hreach : installs.Reach (fun _ _ => True) p)
    (hlive : p.live ≠ none) : p.module.vpt.inited = true := by
  refine hreach.invariant (P := fun p => p.live ≠ none → p.module.vpt.inited = true) ?_ ?_ hlive
  · intro h
    exact absurd rfl h
  · intro p op p' _ _ hstep ih hlive'
    cases op with
    | destroy =>
      cases hstep
      exact absurd rfl hlive'
    | install config out =>
      simp only [installs, Option.some.injEq] at hstep
      subst hstep
      unfold VideoPassthrough.install at hlive' ⊢
      cases hinit : pjrs_vpt_init p.module (c_config config) install_callbacks out with
      | mk status module =>
        simp only [hinit] at hlive' ⊢
        by_cases hstatus : status = .PJ_SUCCESS
        · subst hstatus
          obtain ⟨_, _, _, _, hvpt⟩ := pjrs_vpt_init_success hinit
          simp [check_status, hvpt]
        · simp only [check_status, if_neg hstatus] at hlive' ⊢
          have hinited := ih hlive'
          rw [pjrs_vpt_init_of_inited hinited] at hinit
          cases hinit
          exact hinited

/-- While an install is live every further one fails. It leaves the C module as
    it was and empties the slot, so the slot is as it was only where an earlier
    failed install had emptied it already. -/
theorem install_while_live {p : Process} (hinited : p.module.vpt.inited = true)
    (config : PassthroughConfig) (out : InitOutcome) :
    VideoPassthrough.install p config out =
      (.error .PJ_EINVALIDOP, { p with arcs := p.arcs ++ [Shared.new config], SHARED := none }) := by
  simp only [VideoPassthrough.install, pjrs_vpt_init_of_inited hinited, check_status]
  rfl

/-- A failed install never leaves an earlier one undisturbed: the slot no longer
    serves it. Only the C side is kept, and the slot itself is as before just where
    it was empty already. The earlier install may have been used in any way; of the
    failing one neither the configuration nor the outcome matters, since the module
    refuses a second initialisation. -/
theorem VideoPassthrough.install_disturbs {p : Process}
    (hreach : installs.Reach (fun _ _ => True) p) {k : Nat} (hlive : p.live = some k)
    (config : PassthroughConfig) (out : InitOutcome) :
    (VideoPassthrough.install p config out).1 = .error .PJ_EINVALIDOP ∧
      (VideoPassthrough.install p config out).2.module = p.module ∧
      (VideoPassthrough.install p config out).2.shared = none ∧
      ((VideoPassthrough.install p config out).2.SHARED = p.SHARED ↔ p.SHARED = none) ∧
      ¬ Undisturbed p (VideoPassthrough.install p config out).2 := by
  have hinited := inited_of_live hreach (by simp [hlive])
  rw [install_while_live hinited]
  refine ⟨rfl, rfl, rfl, ?_, ?_⟩
  · exact eq_comm
  · intro h
    have hserves := h.serves
    rw [hlive] at hserves
    cases hserves

/-- The process after one install that went well. -/
def installed_once : Process := (VideoPassthrough.install installs.start {} {}).2

theorem installed_once_reach : installs.Reach (fun _ _ => True) installed_once :=
  .step (a := .install {} {}) .start trivial rfl

/-- The default configuration installed twice: the second install takes the slot
    away from the first. -/
theorem VideoPassthrough.install_disturbs_second :
    installed_once.live = some 0 ∧
      ¬ Undisturbed installed_once (VideoPassthrough.install installed_once {} {}).2 :=
  ⟨by decide, (VideoPassthrough.install_disturbs installed_once_reach (k := 0) (by decide) {} {}).2.2.2.2⟩

/-- Not every failed install leaves an earlier one undisturbed: a second install
    with the default configuration does not. -/
theorem VideoPassthrough.not_install_undisturbed :
    ¬ ∀ (p : Process) (config : PassthroughConfig) (out : InitOutcome) (e : pj_status_t),
      installs.Reach (fun _ _ => True) p → p.live ≠ none →
      (VideoPassthrough.install p config out).1 = .error e →
      Undisturbed p (VideoPassthrough.install p config out).2 := by
  intro hclaim
  have hinited : installed_once.module.vpt.inited = true := by decide
  have hund := hclaim installed_once {} {} .PJ_EINVALIDOP installed_once_reach (by decide)
    (by rw [install_while_live hinited])
  have hserves := hund.serves
  rw [install_while_live hinited] at hserves
  exact absurd hserves (by decide)

end pjsua_rust.video
