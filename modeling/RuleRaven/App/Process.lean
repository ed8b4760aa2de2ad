import RuleRaven.App.Startup
import RuleRaven.System.Shutdown

namespace RuleRaven.App

open Framework Controller Notify Kube

/-- The whole process: `Run` of the application, whose first runner is the manager, and the
startup checks that the probe reports. -/
structure Process (Q : Queue ResourceKey) where
  course : Course
  plant : Plant Q
  checks : BitVec 32

/-- What the manager returns to the application, once it returns. -/
def exitOf : Kube.Stage → Option (Option RunError)
  | .finished => some none
  | .failed err => some (err.map fun e => ⟨e.text, []⟩)
  | _ => none

variable {Q : Queue ResourceKey}

section Steps

variable (H : Hasher) (reconcile : ReconcileFunc) (d : Dispatcher) (known : ResourceKey → Prop)
  (workers : Nat) (a : App)

/-- One step of the process. The manager's context is that of the runners, and its `OnCacheSync`
makes the last mark. -/
inductive ProcessStep : Process Q → Process Q → Prop
  | app {c c' : Course} (p : Plant Q) (checks : BitVec 32) (h : AppStep a c c')
      (hmanager : 0 ∈ c.running → 0 ∈ c'.running) : ProcessStep ⟨c, p, checks⟩ ⟨c', p, checks⟩
  | manager {p p' : Plant Q} (c : Course) (checks : BitVec 32)
      (h : ManagerStep H reconcile d known workers p p')
      (hcontext : p'.state.cancelled = true → p.state.cancelled = true ∨ c.ended = true)
      (hquiet : ¬(p.state.stage = .synced ∧ p'.state.stage = .announced)) :
      ProcessStep ⟨c, p, checks⟩ ⟨c, p', checks⟩
  | onCacheSync {p : Plant Q} (c : Course) (checks : BitVec 32) (h : p.state.stage = .synced) :
      ProcessStep ⟨c, p, checks⟩
        ⟨c, ⟨{ p.state with stage := .announced }, p.workers⟩,
          Health.mark .informersSynced checks⟩
  | exit {c : Course} {p : Plant Q} {result : Option RunError} (checks : BitVec 32)
      (h : 0 ∈ c.running) (hroom : c.results.length < a.runners)
      (hexit : exitOf p.state.stage = some result) :
      ProcessStep ⟨c, p, checks⟩
        ⟨{ c with running := c.running.erase 0, results := c.results ++ [result] }, p, checks⟩

def ProcessRuns : Process Q → Process Q → Prop :=
  Relation.ReflTransGen (ProcessStep H reconcile d known workers a)

end Steps

/-- The start of `Run`, with the marks that were made before it. -/
def launch (Q : Queue ResourceKey) (a : App) (manager : Manager) (t : Time) (checks : BitVec 32) :
    Process Q :=
  ⟨a.begin t, manager.begin Q t, checks⟩

/-- Nobody was told that the informers have synchronized. -/
def unsynced : Kube.Stage → Bool
  | .syncing | .synced | .failed _ => true
  | _ => false

section Runs

variable {H : Hasher} {reconcile : ReconcileFunc} {d : Dispatcher} {known : ResourceKey → Prop}
  {workers : Nat} {a : App} {t : Time} {checks : BitVec 32} {x x' : Process Q}

theorem ProcessRuns.app (hrun : ProcessRuns H reconcile d known workers a x x') :
    AppRuns a x.course x'.course := by
  induction hrun with
  | refl => exact .refl
  | tail _ h ih =>
    cases h with
    | app p checks h hmanager => exact ih.tail h
    | manager c checks h hcontext hquiet => exact ih
    | onCacheSync c checks h => exact ih
    | exit checks h hroom hexit => exact ih.tail (.inl (.returns _ h hroom))

theorem ProcessRuns.manager (hrun : ProcessRuns H reconcile d known workers a x x') :
    ManagerRuns H reconcile d known workers x.plant x'.plant := by
  induction hrun with
  | refl => exact .refl
  | tail _ h ih =>
    cases h with
    | app p checks h hmanager => exact ih
    | manager c checks h hcontext hquiet => exact ih.tail h
    | onCacheSync c checks h => exact ih.tail (.pass _ (.onCacheSync h))
    | exit checks h hroom hexit => exact ih

/-- How `Run` of the manager goes on. -/
theorem stage_progress {s s' : Site Q} {phases phases' : List Kube.Phase}
    (h : Progress H reconcile d known workers s phases s' phases') :
    s'.stage = s.stage ∨ s.stage = .synced ∧ s'.stage = .announced ∨
      exitOf s.stage = none ∧ unsynced s'.stage = unsynced s.stage := by
  cases h with
  | turn ps qs h => exact Or.inl h.site.1
  | pass phases h =>
    cases h with
    | onCacheSync h => exact Or.inr (Or.inl ⟨h, rfl⟩)
    | synced h | unsynced h | stop h hcancelled | shut h | drained h hdrained =>
      exact Or.inr (Or.inr ⟨by rw [h]; rfl, by rw [h]; rfl⟩)
    | _ => exact Or.inl rfl
  | launched h | joined h hgone => exact Or.inr (Or.inr ⟨by rw [h]; rfl, by rw [h]; rfl⟩)

/-- The application has the result of the manager only after the manager has returned; and the
last mark is made when the informers have synchronized. -/
structure Sound (reconcile : ReconcileFunc) (workers : Nat) (checks : BitVec 32) (x : Process Q) :
    Prop where
  upkept : Upkept reconcile workers x.plant
  exited : 0 ∉ x.course.running → (exitOf x.plant.state.stage).isSome = true
  checks : x.checks = if unsynced x.plant.state.stage then checks
    else Health.mark .informersSynced checks

theorem Sound.step (hx : Sound reconcile workers checks x)
    (h : ProcessStep H reconcile d known workers a x x') : Sound reconcile workers checks x' := by
  obtain ⟨hupkept, hexited, hchecks⟩ := hx
  cases h with
  | app p checks h hmanager =>
    exact ⟨hupkept, fun hgone => hexited fun hrunning => hgone (hmanager hrunning), hchecks⟩
  | @manager p p' c checks h hcontext hquiet =>
    obtain ⟨phases, hcrew, horderly, -⟩ := id hupkept
    obtain ⟨phases', -, hprogress⟩ := h.progress hcrew horderly.fits
    have hstage := (stage_progress hprogress).imp_right (Or.resolve_left · hquiet)
    dsimp only at hexited hchecks
    refine ⟨hupkept.step h, fun hgone => ?_, ?_⟩
    · have hdone := hexited hgone
      rcases hstage with hstage | ⟨hnone, -⟩
      · rwa [hstage]
      · rw [hnone] at hdone
        cases hdone
    · rw [hchecks]
      rcases hstage with hstage | ⟨-, hsame⟩
      · rw [hstage]
      · rw [hsame]
  | @onCacheSync p c checks h =>
    dsimp only at hexited hchecks
    rw [h] at hexited hchecks
    have hpasses : Passes H d known p.state { p.state with stage := .announced } :=
      .onCacheSync h
    refine ⟨hupkept.step (.pass _ hpasses),
      fun hgone => absurd (hexited hgone) (by simp [exitOf]), ?_⟩
    rw [hchecks]
    rfl
  | @exit c p result checks h hroom hexit =>
    exact ⟨hupkept, fun _ => by dsimp only; rw [hexit]; rfl, hchecks⟩

theorem runs_sound {manager : Manager} (hrunners : 0 < a.runners)
    (hrun : ProcessRuns H reconcile d known workers a (launch Q a manager t checks) x) :
    Sound reconcile workers checks x := by
  induction hrun with
  | refl =>
    refine ⟨⟨[], rfl, orderly_begin manager t, recorded_begin manager t⟩,
      fun hgone => absurd ?_ hgone, rfl⟩
    exact List.mem_range.mpr hrunners
  | tail _ h ih => exact ih.step h

variable {manager : Manager}

/-- A call of a worker leaves the stage of `Run` as it is. -/
theorem acts_stage {op : WorkerOp} {s s' : Site Q} {reply : op.Reply}
    (h : Site.acts op s reply s') : s'.stage = s.stage := by
  cases op with
  | get | effect key op =>
    obtain ⟨_, -, rfl⟩ := h
    rfl
  | ctxErr =>
    obtain ⟨-, rfl⟩ := h
    rfl
  | _ =>
    obtain rfl := h
    rfl

/-- Only `OnCacheSync` tells that the informers have synchronized. -/
theorem eq_of_announced {p p' : Plant Q} (h : ManagerStep H reconcile d known workers p p')
    (hsynced : p.state.stage = .synced) (hannounced : p'.state.stage = .announced) :
    p' = ⟨{ p.state with stage := .announced }, p.workers⟩ := by
  cases h with
  | work h =>
    obtain ⟨ts, us, hmoves⟩ := h
    cases hmoves with
    | act next hact =>
      rw [show _ = _ from acts_stage hact, hsynced] at hannounced
      cases hannounced
    | turn =>
      rw [hsynced] at hannounced
      cases hannounced
  | pass crew h =>
    cases h with
    | onCacheSync h => rfl
    | synced h | unsynced h | stop h hcancelled | shut h | drained h hdrained => cases hannounced
    | _ =>
      rw [hsynced] at hannounced
      cases hannounced
  | launched crew h => cases hannounced
  | joined h hfinished => cases hannounced

/-- While the context is over, the manager may do all it does on its own. -/
theorem runs_of_manager {c : Course} (hover : c.ended = true) {p p' : Plant Q}
    (h : ManagerRuns H reconcile d known workers p p') (checks : BitVec 32) :
    ∃ checks', ProcessRuns H reconcile d known workers a ⟨c, p, checks⟩ ⟨c, p', checks'⟩ := by
  induction h with
  | refl => exact ⟨checks, .refl⟩
  | @tail p' p'' _ h ih =>
    obtain ⟨checks', hrun⟩ := ih
    by_cases htold : p'.state.stage = .synced ∧ p''.state.stage = .announced
    · rw [eq_of_announced h htold.1 htold.2]
      exact ⟨_, hrun.tail (.onCacheSync c checks' htold.1)⟩
    · exact ⟨_, hrun.tail (.manager c checks' h (fun _ => Or.inr hover) htold)⟩

/-- After `NewProduction` the probe succeeds from the time on when `OnCacheSync` has told that
the informers have synchronized, and never if they have failed to; no worker starts before. -/
theorem ready_synced {H' : Hasher} {L : Provider.Library} {W : Webhook.Library}
    {F : Formats} {lookupEnv : String → Option String}
    {pid : Nat} {cfg : Config} {trace : List SetupEvent} {production : Production}
    (hbuilt : (newProduction H' L W F lookupEnv pid cfg).Does trace (.ok production))
    (hrunners : 0 < a.runners)
    (hrun : ProcessRuns H reconcile d known workers a
      (launch Q a manager t (startChecks trace)) x) :
    ((Health.readyz (some x.checks) "GET").status = 200 ↔
      unsynced x.plant.state.stage = false) ∧
    (x.plant.workers ≠ [] → (Health.readyz (some x.checks) "GET").status = 200) := by
  have hsound := runs_sound hrunners hrun
  have hready : (Health.readyz (some x.checks) "GET").status = 200 ↔
      unsynced x.plant.state.stage = false := by
    rw [hsound.checks, startChecks, newProduction_marks hbuilt]
    cases unsynced x.plant.state.stage <;> decide
  refine ⟨hready, fun hworkers => hready.mpr ?_⟩
  obtain ⟨phases, hcrew, horderly, -⟩ := hsound.upkept
  have hphases : phases ≠ [] := by
    rintro rfl
    exact hworkers hcrew
  have hfits := horderly.fits
  unfold Site.Fits at hfits
  cases hstage : x.plant.state.stage <;> rw [hstage] at hfits
  case syncing | synced | failed => exact absurd hfits.1 hphases
  all_goals rfl

namespace Scenario

open Shift RuleRaven.Controller.Scenario RuleRaven.Scenario

theorem single_timeout_pos : (0 : Duration) < 30000000000 := by decide

/-- The manager alone, and the store. -/
def single : App := ⟨1, 1, 30000000000, single_timeout_pos⟩

abbrev Goes (x x' : Process jobs) : Prop :=
  ProcessRuns keepingHasher work RuleRaven.Scenario.hooked seen 1 single x x'

/-- The context of the process ends, and the manager after its day. Then the store is closed. -/
theorem single_closes (checks : BitVec 32) : ∃ x, Goes (launch jobs single watching noon checks) x ∧
    x.plant.state.stage = .finished ∧ x.course.closings = [(0, none)] ∧
    x.course.timedOut = false := by
  have hfacts : (spend (evening ++ night) dawn).any (fun c =>
      decide (c.1.stage = .finished)) = true := by
    decide +kernel
  obtain ⟨p, hworks, hp⟩ := works_of_spend hfacts
  have hfinished := of_decide_eq_true hp
  have hends : Goes (launch jobs single watching noon checks)
      ⟨{ single.begin noon with parent := some .canceled }, watching.begin jobs noon, checks⟩ :=
    .tail .refl (.app _ _ (.inl (.ends .canceled rfl)) id)
  obtain ⟨checks', hrun⟩ := runs_of_manager (a := single)
    (c := { single.begin noon with parent := some .canceled }) rfl hworks checks
  have hexit : exitOf p.1.stage = some none := by
    rw [hfinished]
    rfl
  have hexited := (hends.trans hrun).tail (.exit checks' (by decide) (by decide) hexit)
  have hfirst := hexited.tail (.app _ checks' (.inr (.first rfl rfl)) id)
  have hstopped := hfirst.tail (.app _ checks' (.inr (.stopped rfl rfl)) id)
  have hcalled := hstopped.tail (.app _ checks' (.inr (.close rfl)) id)
  have hclosed := hcalled.tail (.app _ checks' (.inl (.closed none rfl)) id)
  exact ⟨_, hclosed, hfinished, rfl, rfl⟩

end Scenario

open App.Scenario in
/-- The probe at the start, and after a day. -/
theorem ready_synced_single : ∃ x, Goes (launch Shift.jobs single Shift.watching
      Controller.Scenario.noon (startChecks (startingTrace "secret"))) x ∧
    (Health.readyz (some (startChecks (startingTrace "secret"))) "GET").status = 503 ∧
    (Health.readyz (some x.checks) "GET").status = 200 := by
  obtain ⟨x, hrun, hstage, -⟩ := single_closes (startChecks (startingTrace "secret"))
  refine ⟨x, hrun, by decide +kernel, (ready_synced built_does (by decide) hrun).1.mpr ?_⟩
  rw [hstage]
  rfl

/-- The store is closed last: unless the shutdown timed out, no worker takes a step any more when
the first closer is called; the informers had failed, or every accepted key was reconciled
after each of its additions. -/
theorem closes_after_drain (hrunners : 0 < a.runners) (hworkers : 0 < workers)
    (hrun : ProcessRuns H reconcile d known workers a (launch Q a manager t checks) x)
    (hclosing : (∃ left, x.course.stage = .calling left) ∨ x.course.closings ≠ [])
    (hlive : x.course.timedOut = false) :
    (∀ p, ¬(service reconcile).Step x.plant p) ∧
    ((∃ err, x.plant.state.stage = .failed err ∧ x.plant.workers = []) ∨
      x.plant.state.stage = .finished ∧ ∀ key before after,
        x.plant.state.queue.log = before ++ .added key :: after →
        ∃ n result, n = before.count (.got key) + 1 ∧ .reconcile key n ∈ x.plant.state.world.gone ∧
          (reconcile key).Does (callsOf x.plant.state.world.trace (.reconcile key n)) result) := by
  have hsound := runs_sound hrunners hrun
  have hkept := runs_kept hrun.app
  have hexited := hsound.exited (by simp [(hkept.stopped (hkept.closing hclosing) hlive).1])
  obtain ⟨phases, hcrew, horderly, hrecorded⟩ := hsound.upkept
  have hfits := horderly.fits
  unfold Site.Fits at hfits
  have hgone : (∀ φ ∈ phases, φ = Kube.Phase.gone) → ∀ p, ¬(service reconcile).Step x.plant p := by
    intro hall p h
    obtain ⟨ps, φ, qs, w, rfl, hmoves, -⟩ := h.viewed hcrew
    rw [hall φ (by simp)] at hmoves
    cases hmoves
  cases hstage : x.plant.state.stage <;> rw [hstage] at hfits hexited
  case failed err =>
    obtain ⟨rfl, -⟩ := hfits
    exact ⟨hgone (by simp), Or.inl ⟨err, rfl, hcrew⟩⟩
  case finished =>
    refine ⟨hgone hfits.2.2.2, Or.inr ⟨rfl, fun key before after hlog => ?_⟩⟩
    obtain ⟨hdirty, hprocessing⟩ := hsound.upkept.finished hworkers hstage
    exact hrecorded.answered horderly.accounts hdirty hprocessing hlog
  all_goals cases hexited

theorem closes_after_drain_single : ∃ x, Scenario.Goes (launch Shift.jobs Scenario.single
      Shift.watching Controller.Scenario.noon 0#32) x ∧ x.course.closings ≠ [] ∧
    x.course.timedOut = false ∧ ∀ p, ¬(service Shift.work).Step x.plant p := by
  obtain ⟨x, hrun, -, hclosings, hlive⟩ := Scenario.single_closes 0#32
  have hclosing : x.course.closings ≠ [] := by simp [hclosings]
  exact ⟨x, hrun, hclosing, hlive,
    (closes_after_drain (by decide) (by decide) hrun (Or.inr hclosing) hlive).1⟩

end Runs

end RuleRaven.App
