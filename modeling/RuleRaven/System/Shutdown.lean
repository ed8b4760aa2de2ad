import RuleRaven.System.Dispatching
import RuleRaven.System.Rota
import RuleRaven.System.Upkeep

namespace RuleRaven.Kube

open Framework Framework.Tracked Controller Notify

variable {Q : Queue ResourceKey} {H : Hasher} {reconcile : ReconcileFunc} {d : Dispatcher}
  {known : ResourceKey → Prop} {workers : Nat} {c c' : Plant Q}

/-- Once `Run` has returned no key is marked or worked on. -/
theorem Upkept.finished (hc : Upkept reconcile workers c) (hworkers : 0 < workers)
    (hstage : c.state.stage = .finished) :
    (∀ key, key ∉ c.state.queue.view.dirty) ∧ ∀ key, key ∉ c.state.queue.view.processing := by
  obtain ⟨phases, -, hc, -⟩ := hc
  have hfits := hc.fits
  unfold Site.Fits at hfits
  rw [hstage] at hfits
  obtain ⟨hlength, -, -, hgone⟩ := hfits
  have hne : phases ≠ [] := by
    rintro rfl
    rw [← hlength] at hworkers
    exact absurd hworkers (by simp)
  have hprocessing : ∀ key, key ∉ c.state.queue.view.processing := by
    intro key hkey
    obtain ⟨φ, hφ, hheld⟩ := List.mem_filterMap.mp ((hc.held key).mp hkey)
    rw [hgone φ hφ] at hheld
    cases hheld
  have hqueue : c.state.queue.view.queue = [] := by
    refine hc.drained hne fun φ hφ => ?_
    rw [hgone φ hφ]
    rfl
  refine ⟨fun key hkey => ?_, hprocessing⟩
  have hqueued := (hc.accounts.ordered.mem_queue key).mpr ⟨hkey, hprocessing key⟩
  rw [hqueue] at hqueued
  cases hqueued

variable {manager : Manager} {t : Time}

/-- Where no key is marked or worked on, each addition was answered by a reconciliation that has
run to its end. -/
theorem Recorded.answered {s : Site Q} {phases : List Phase} (hs : Recorded reconcile s phases)
    (haccounts : s.queue.Accounts) (hdirty : ∀ key, key ∉ s.queue.view.dirty)
    (hprocessing : ∀ key, key ∉ s.queue.view.processing) {key : ResourceKey}
    {before after : List (QueueEvent ResourceKey)}
    (hlog : s.queue.log = before ++ .added key :: after) :
    ∃ n result, n = before.count (.got key) + 1 ∧ .reconcile key n ∈ s.world.gone ∧
      (reconcile key).Does (callsOf s.world.trace (.reconcile key n)) result := by
  have hgot : .got key ∈ after :=
    stop_of_not_since ((haccounts.mem_dirty key).not.mp (hdirty key)) hlog
  have hstarted : before.count (.got key) + 1 ≤ started s.queue key := by
    have hpos := List.count_pos_iff.mpr hgot
    rw [started, hlog, List.count_append, List.count_cons_of_ne (by simp)]
    omega
  have hgone : .reconcile key (before.count (.got key) + 1) ∈ s.world.gone :=
    (hs.gone key _).mpr ⟨by omega, hstarted, fun _ => hprocessing key⟩
  obtain ⟨result, hdoes, -⟩ := hs.ran key _ hgone
  exact ⟨_, result, rfl, hgone, hdoes⟩

section Example

open Shift Controller.Scenario RuleRaven.Scenario

end Example

/-- A reconciliation that failed, or asked to be called again, is: unless the context is over or
the queue shut down, its key is marked or waits, as long as it was not started again. -/
theorem failed_comes_again
    (hrun : ManagerRuns H reconcile d known workers (manager.begin Q t) c) {key : ResourceKey}
    (hover : c.state.latest key ∈ c.state.world.gone) :
    ∃ result, (reconcile key).Does (callsOf c.state.world.trace (c.state.latest key)) result ∧
      (again result = true → c.state.cancelled = true ∨ c.state.queue.view.shuttingDown = true ∨
        key ∈ c.state.queue.view.dirty ∨ key ∈ c.state.queue.view.waiting) := by
  obtain ⟨phases, -, hc, hrecorded⟩ := runs_upkept hrun
  obtain ⟨result, hdoes, hreacts⟩ := hrecorded.ran key _ hover
  refine ⟨result, hdoes, fun hagain => ?_⟩
  exact (hreacts rfl hagain).imp_right (hc.accounts.due key)

section Example

open Shift Controller.Scenario RuleRaven.Scenario

/-- A job that failed waits, and is marked besides. -/
theorem failed_comes_again_waiting : ∃ c,
    Works (watching.begin jobs noon) c ∧ c.state.latest other ∈ c.state.world.gone ∧
    c.state.cancelled = false ∧ c.state.queue.view.waiting = {other} ∧
    ∃ result, (work other).Does
        (callsOf c.state.world.trace (c.state.latest other)) result ∧
      (again result = true → c.state.cancelled = true ∨ c.state.queue.view.shuttingDown = true ∨
        other ∈ c.state.queue.view.dirty ∨ other ∈ c.state.queue.view.waiting) := by
  have hfacts : (spend morning dawn).any (fun c =>
        decide (c.1.latest other ∈ c.1.world.gone ∧ c.1.cancelled = false ∧
          c.1.queue.view.waiting = {other})) = true := by
    decide +kernel
  obtain ⟨c, hrun, hc⟩ := works_of_spend hfacts
  obtain ⟨hover, hlive, hwaiting⟩ := of_decide_eq_true hc
  exact ⟨_, hrun, hover, hlive, hwaiting, failed_comes_again hrun hover⟩

end Example

/-- Two reconciliations of one key never overlap: every call of the earlier one comes before
every call of the later one. And no key is held by two workers. -/
theorem reconciliations_apart
    (hrun : ManagerRuns H reconcile d known workers (manager.begin Q t) c) :
    c.state.world.trace.Pairwise InOrder ∧ ∀ key m n, .reconcile key n ∉ c.state.world.gone →
      (∃ e ∈ c.state.world.trace, e.worker = .reconcile key n) →
      (∃ e ∈ c.state.world.trace, e.worker = .reconcile key m) → m = n ∨
        .reconcile key m ∈ c.state.world.gone := by
  obtain ⟨phases, -, hc, hrecorded⟩ := runs_upkept hrun
  refine ⟨hrecorded.ordered, fun key m n hlive hn hm => ?_⟩
  obtain ⟨e, he, hname⟩ := hn
  obtain ⟨f, hf, hname'⟩ := hm
  obtain ⟨hpos, hle⟩ := hrecorded.names e he key n hname
  obtain ⟨hpos', hle'⟩ := hrecorded.names f hf key m hname'
  have hlast : n = started c.state.queue key := by
    by_contra hne
    exact hlive ((hrecorded.gone key n).mpr ⟨hpos, hle, fun heq => absurd heq hne⟩)
  by_cases hm : m = n
  · exact Or.inl hm
  · refine Or.inr ((hrecorded.gone key m).mpr ⟨hpos', hle', fun heq => ?_⟩)
    exact absurd (heq.trans hlast.symm) hm

section Example

open Shift Controller.Scenario RuleRaven.Scenario

/-- Both jobs are reconciled twice. -/
theorem reconciliations_apart_twice : ∃ c,
    Works (watching.begin jobs noon) c ∧
    (∃ e ∈ c.state.world.trace, e.worker = .reconcile other 1) ∧
    (∃ e ∈ c.state.world.trace, e.worker = .reconcile other 2) ∧
    c.state.world.trace.Pairwise InOrder := by
  have hfacts : (spend (evening ++ night) dawn).any (fun c =>
        c.1.world.trace.any (fun e => decide (e.worker = .reconcile other 1)) &&
          c.1.world.trace.any (fun e => decide (e.worker = .reconcile other 2))) = true := by
    decide +kernel
  obtain ⟨c, hrun, hc⟩ := works_of_spend hfacts
  simp only [Bool.and_eq_true, List.any_eq_true, decide_eq_true_eq] at hc
  exact ⟨_, hrun, hc.1, hc.2, (reconciliations_apart hrun).1⟩

end Example

/-- Keys are started in the order in which they were queued: while a queued key waits, each
start of another one brings it one place further. -/
theorem starts_in_order
    (hrun : ManagerRuns H reconcile d known workers (manager.begin Q t) c)
    (hlater : ManagerRuns H reconcile d known workers c c') {key : ResourceKey}
    (hkey : key ∈ c.state.queue.view.queue) :
    ∃ events, c'.state.queue.log = c.state.queue.log ++ events ∧ (.got key ∉ events →
      key ∈ c'.state.queue.view.queue ∧ c'.state.queue.view.queue.idxOf key +
        events.countP QueueEvent.isGot = c.state.queue.view.queue.idxOf key) :=
  operates_rank ((runs_upkept hrun).runs hlater).2 hkey

section Example

open Shift Controller.Scenario RuleRaven.Scenario

/-- The second of two queued jobs comes first once the other one is started. -/
theorem starts_in_order_second : ∃ c c',
    Works (watching.begin jobs noon) c ∧
    Works c c' ∧
    other ∈ c.state.queue.view.queue ∧ c'.state.queue.view.queue.idxOf other = 0 ∧
    ∃ events, c'.state.queue.log = c.state.queue.log ++ events ∧ (.got other ∉ events →
      other ∈ c'.state.queue.view.queue ∧ c'.state.queue.view.queue.idxOf other +
        events.countP QueueEvent.isGot = c.state.queue.view.queue.idxOf other) := by
  have hfacts : (spend morning dawn).any (fun c => decide (other ∈ c.1.queue.view.queue) &&
        (spend [.work 0 1 unreachableServer] c).any
          fun c' => decide (c'.1.queue.view.queue.idxOf other = 0)) = true := by
    decide +kernel
  obtain ⟨c, hrun, hc⟩ := works_of_spend hfacts
  obtain ⟨hkey, hc⟩ := Bool.and_eq_true_iff.mp hc
  obtain ⟨c', hlater, hc'⟩ := works_of_spend hc
  exact ⟨_, _, hrun, hlater, of_decide_eq_true hkey, of_decide_eq_true hc',
    starts_in_order hrun hlater (of_decide_eq_true hkey)⟩

end Example

section Example

open Shift Controller.Scenario RuleRaven.Scenario

end Example

section Ending

variable {s s' : Site Q} {φ φ' : Phase}

/-- A turn that does not start on a key. -/
def Closer (Q : Queue ResourceKey) (reconcile : ReconcileFunc) (φ' φ : Phase) : Prop :=
  ∃ s s' : Site Q, Turns reconcile s φ s' φ' ∧ (φ = .idle → φ' = .leaving)

theorem acc_closer (h : ∀ (s s' : Site Q) φ', Turns reconcile s φ s' φ' →
    Acc (Closer Q reconcile) φ') : Acc (Closer Q reconcile) φ :=
  ⟨_, fun φ' ⟨s, s', hturn, _⟩ => h s s' φ' hturn⟩

theorem acc_leaving : Acc (Closer Q reconcile) .leaving := by
  refine acc_closer fun s s' φ' h => ?_
  cases h
  exact acc_closer fun s s' φ' h => by cases h

/-- It ends instead of starting on another key. -/
theorem acc_idle : Acc (Closer Q reconcile) .idle := by
  refine ⟨_, fun φ' ⟨s, s', _, h⟩ => ?_⟩
  rw [h rfl]
  exact acc_leaving

theorem acc_closing {key : ResourceKey} {result : Except Err Controller.Result} :
    Acc (Closer Q reconcile) (.closing key result) := by
  refine acc_closer fun s s' φ' h => ?_
  cases h
  refine acc_closer fun s s' φ' h => ?_
  cases h
  exact acc_idle

theorem acc_retrying {key : ResourceKey} {err : Err} :
    Acc (Closer Q reconcile) (.retrying key err) := by
  refine acc_closer fun s s' φ' h => ?_
  cases h
  exact acc_closing

theorem acc_delaying {key : ResourceKey} {result : Controller.Result}
    {h : 0 < result.requeueAfter} : Acc (Closer Q reconcile) (.delaying key result h) := by
  refine acc_closer fun s s' φ' h => ?_
  cases h
  exact acc_closing

theorem acc_checking {key : ResourceKey} {result : Controller.Result}
    {h : 0 < result.requeueAfter} : Acc (Closer Q reconcile) (.checking key result h) := by
  refine acc_closer fun s s' φ' h => ?_
  cases h
  · exact acc_closing
  · exact acc_delaying

/-- A reconciliation is a tree of calls, so its end is reached on every path. -/
theorem acc_working {key : ResourceKey} (p : Eff (Except Err Controller.Result)) :
    Acc (Closer Q reconcile) (.working key p) := by
  induction p with
  | ret result =>
    refine acc_closer fun s s' φ' h => ?_
    cases h
    · exact acc_retrying
    · exact acc_closing
    · exact acc_closing
    · exact acc_checking
  | call op next ih =>
    refine acc_closer fun s s' φ' h => ?_
    cases h
    exact ih _

/-- A worker that gets no further key comes to its end, whatever its calls are answered. -/
theorem closer_wf : WellFounded (Closer Q reconcile) := by
  refine ⟨fun φ => ?_⟩
  cases φ with
  | idle => exact acc_idle
  | working key p => exact acc_working p
  | retrying key err => exact acc_retrying
  | checking key result h => exact acc_checking
  | delaying key result h => exact acc_delaying
  | closing key result => exact acc_closing
  | looping => exact acc_closer fun s s' φ' h => by cases h; exact acc_idle
  | leaving => exact acc_leaving
  | gone => exact acc_closer fun s s' φ' h => by cases h

/-- The turn of a worker after the shutdown, with what else may have happened before it. -/
def LateTurn (H : Hasher) (reconcile : ReconcileFunc) (d : Dispatcher)
    (known : ResourceKey → Prop) (s : Site Q) (φ : Phase) (s' : Site Q) (φ' : Phase) : Prop :=
  s.queue.Accounts ∧ s.queue.view.shuttingDown = true ∧
    (∀ key, φ.key = some key → key ∈ s.queue.view.processing) ∧
    ∃ s₁, Relation.ReflTransGen (Passes H d known) s s₁ ∧ Turns reconcile s₁ φ s' φ'

/-- After the shutdown nothing marks a key. -/
theorem Passes.dirty (h : Passes H d known s s') (hclosed : s.queue.view.shuttingDown = true) :
    s'.queue.view.dirty = s.queue.view.dirty ∧ s'.queue.view.shuttingDown = true := by
  refine ⟨?_, (h.queue.2.2 hclosed).2⟩
  cases h with
  | callback h hknown | sweep hknown => rw [view_add, QueueView.mark_closed hclosed]
  | due h => rw [view_fire h, QueueView.mark_closed hclosed]
  | unsynced h | shut h => rw [view_shutDown]
  | _ => rfl

/-- A turn starts on a key, or brings the worker closer to its end. -/
theorem Turns.closer (h : Turns reconcile s φ s' φ')
    (hheld : ∀ key, φ.key = some key → key ∈ s.queue.view.processing) :
    (∃ key, s.queue.get = some (some key, s'.queue)) ∨
      s'.queue.view.dirty = s.queue.view.dirty ∧ Closer Q reconcile φ' φ := by
  have hturn := h
  cases h with
  | got h => exact Or.inl ⟨_, h⟩
  | shut h =>
    refine Or.inr ⟨?_, s, _, hturn, fun _ => rfl⟩
    rw [(get_eq_none h).1]
  | retried key err =>
    refine Or.inr ⟨?_, s, _, hturn, fun h => by cases h⟩
    rw [view_addRateLimited, QueueView.putOff_dirty]
  | settled key h | succeeded key h =>
    refine Or.inr ⟨?_, s, _, hturn, fun h => by cases h⟩
    rw [view_forget]
  | delayed key hdelay =>
    refine Or.inr ⟨?_, s, _, hturn, fun h => by cases h⟩
    rw [view_addAfter _ _ (toInt_pos hdelay), QueueView.putOff_dirty]
  | closed key result =>
    refine Or.inr ⟨?_, s, _, hturn, fun h => by cases h⟩
    rw [view_done (hheld key rfl)]
  | _ => exact Or.inr ⟨rfl, s, _, hturn, fun h => by cases h⟩

theorem passes_closed (h : Relation.ReflTransGen (Passes H d known) s s')
    (haccounts : s.queue.Accounts) (hclosed : s.queue.view.shuttingDown = true) :
    s'.queue.Accounts ∧ s'.queue.view.shuttingDown = true ∧
      s'.queue.view.dirty = s.queue.view.dirty ∧
      s'.queue.view.processing = s.queue.view.processing := by
  induction h with
  | refl => exact ⟨haccounts, hclosed, rfl, rfl⟩
  | tail _ hpass ih =>
    obtain ⟨haccounts, hclosed, hdirty, hprocessing⟩ := ih
    obtain ⟨hsame, hclosed⟩ := hpass.dirty hclosed
    exact ⟨ReflGen.accounts hpass.queue.2.1 haccounts, hclosed, hsame.trans hdirty,
      hpass.queue.1.processing.trans hprocessing⟩

theorem LateTurn.closer (h : LateTurn H reconcile d known s φ s' φ') :
    s'.queue.view.dirty.card < s.queue.view.dirty.card ∨
      s'.queue.view.dirty.card = s.queue.view.dirty.card ∧ Closer Q reconcile φ' φ := by
  obtain ⟨haccounts, hclosed, hheld, s₁, hpasses, hturn⟩ := h
  obtain ⟨haccounts, -, hdirty, hprocessing⟩ := passes_closed hpasses haccounts hclosed
  rw [← hprocessing] at hheld
  rw [← hdirty]
  rcases hturn.closer hheld with ⟨key, hget⟩ | ⟨hsame, hcloser⟩
  · obtain ⟨hqueue, -, hview⟩ := get_eq_some hget
    left
    rw [hview]
    exact Finset.card_erase_lt_of_mem ((haccounts.ordered.mem_queue key).mp (by simp [hqueue])).1
  · exact Or.inr ⟨by rw [hsame], hcloser⟩

/-- Some worker takes a step, whatever else happens before it. -/
def Rounds (H : Hasher) (reconcile : ReconcileFunc) (d : Dispatcher) (known : ResourceKey → Prop)
    (c c' : Plant Q) : Prop :=
  ∃ s, Relation.ReflTransGen (Passes H d known) c.state s ∧
    (service reconcile).Step ⟨s, c.workers⟩ c'

theorem Orderly.passes {phases : List Phase} (hs : Orderly workers s phases)
    (hpasses : Relation.ReflTransGen (Passes H d known) s s') : Orderly workers s' phases := by
  induction hpasses with
  | refl => exact hs
  | tail _ hpass ih => exact ih.pass hpass

theorem Orderly.rounds_acc {phases : List Phase} (hc : Orderly workers c.state phases)
    (hcrew : c.workers = phases.map (Phase.view reconcile))
    (hclosed : c.state.queue.view.shuttingDown = true) :
    Acc (fun b a => Rounds H reconcile d known a b) c := by
  have hacc : Acc (fun b a : Site Q × List Phase => ∃ ps φ φ' qs, a.2 = ps ++ φ :: qs ∧
      b.2 = ps ++ φ' :: qs ∧ LateTurn H reconcile d known a.1 φ b.1 φ') (c.state, phases) :=
    crew_acc (fun s => s.queue.view.dirty.card) closer_wf (fun _ _ _ _ h => h.closer) _
  generalize ha : (c.state, phases) = a at hacc
  induction hacc generalizing c phases with
  | intro a _ ih =>
    subst ha
    refine ⟨c, ?_⟩
    rintro c' ⟨s, hpasses, hstep⟩
    have hs := hc.passes hpasses
    obtain ⟨ps, φ, qs, w, rfl, hmoves, hworkers⟩ := hstep.viewed hcrew
    obtain ⟨φ', rfl, hturn⟩ := moves_turns hmoves
    have hshut : c'.state.queue.view.shuttingDown = true := by
      rw [hs.shuttingDown hturn]
      exact (passes_closed hpasses hc.accounts hclosed).2.1
    exact ih (c'.state, ps ++ φ' :: qs)
      ⟨ps, φ, φ', qs, rfl, rfl, hc.accounts, hclosed, hc.holds, s, hpasses, hturn⟩ (hs.turn hturn)
      (by rw [hworkers, List.map_append, List.map_cons]) hshut rfl

/-- Shutting down comes to an end: whatever the calls are answered and whatever happens between
them, the workers take finitely many more steps; and as long as one of them has not ended, some
worker can take a step. -/
theorem shutdown_ends {manager : Manager} {t : Time}
    (hrun : ManagerRuns H reconcile d known workers (manager.begin Q t) c)
    (hclosed : c.state.queue.view.shuttingDown = true) :
    Acc (fun b a => Rounds H reconcile d known a b) c ∧
      (c.Finished ∨ ∃ c', (service reconcile).Step c c') := by
  obtain ⟨phases, hcrew, hc, -⟩ := runs_upkept hrun
  refine ⟨hc.rounds_acc hcrew hclosed, ?_⟩
  by_cases hall : ∀ φ ∈ phases, φ = .gone
  · left
    intro w hw
    rw [hcrew] at hw
    obtain ⟨φ, hφ, rfl⟩ := List.mem_map.mp hw
    rw [hall φ hφ]
    exact ⟨false, rfl⟩
  · right
    rw [not_forall] at hall
    obtain ⟨φ, hφ⟩ := hall
    rw [Classical.not_imp] at hφ
    obtain ⟨ps, qs, rfl⟩ := List.append_of_mem hφ.1
    obtain ⟨s', φ', hturn⟩ := turn_isSome reconcile
      (Controller.Scenario.world 0 none) hφ.2 fun _ _ => hclosed
    obtain ⟨s, crew⟩ := c
    obtain rfl : crew = _ := hcrew
    rw [List.map_append, List.map_cons]
    exact ⟨_, .move _ _ (turns_of_turn hturn).moves⟩

end Ending

section Example

open Shift Controller.Scenario RuleRaven.Scenario

/-- Two jobs are queued when the queue is shut down. -/
theorem shutdown_ends_queued : ∃ c,
    Works (watching.begin jobs noon) c ∧ c.state.queue.view.shuttingDown = true ∧
    c.state.queue.view.queue.length = 2 ∧
    Acc (fun b a => Rounds keepingHasher work hooked seen a b) c := by
  have hfacts : (spend evening dawn).any (fun c =>
        decide (c.1.queue.view.shuttingDown = true ∧ c.1.queue.view.queue.length = 2)) = true := by
    decide +kernel
  obtain ⟨c, hrun, hc⟩ := works_of_spend hfacts
  obtain ⟨hclosed, hlength⟩ := of_decide_eq_true hc
  exact ⟨_, hrun, hclosed, hlength, (shutdown_ends hrun hclosed).1⟩

end Example

end RuleRaven.Kube
