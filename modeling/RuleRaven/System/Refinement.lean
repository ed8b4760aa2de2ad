import RuleRaven.System.Dispatching
import RuleRaven.System.Exclusion
import RuleRaven.System.Rota

namespace RuleRaven.Kube

open Framework Framework.Tracked Controller Controller.Reconciler Notify

variable {Q : Queue ResourceKey} {H : Hasher} {r : Reconciler} {d : Dispatcher}
  {known : ResourceKey → Prop} {workers : Nat} {s s' : Site Q} {φ φ' : Phase}
  {phases ps qs : List Phase}

/-- The reconciliation that a worker is at, as one of the executions of a run. -/
def Phase.thread (s : Site Q) : Phase → Option (Execution × Eff Unit)
  | .working key p => some (s.latest key, p.bind fun _ => .ret ())
  | .retrying key _ | .checking key _ _ | .delaying key _ _ | .closing key _ =>
    some (s.latest key, .ret ())
  | _ => none

theorem Phase.thread_eq (h : ∀ key, φ.key = some key → s'.latest key = s.latest key) :
    φ.thread s' = φ.thread s := by
  cases φ with
  | working key p | retrying key err | checking key result h | delaying key result h
    | closing key result => simp only [Phase.thread, h key rfl]
  | _ => rfl

theorem Phase.thread_name {t : Execution × Eff Unit} (h : φ.thread s = some t) :
    ∃ key, φ.key = some key ∧ t.1 = s.latest key := by
  cases φ with
  | working key p | retrying key err | checking key result h | delaying key result h
    | closing key result =>
    cases h
    exact ⟨key, rfl, rfl⟩
  | _ => cases h

/-- All executions that are at work. -/
def Site.threads (s : Site Q) (phases : List Phase) : List (Execution × Eff Unit) :=
  phases.filterMap (Phase.thread s) ++ s.dispatches

/-- Only known keys are about. -/
structure Familiar (known : ResourceKey → Prop) (s : Site Q) : Prop where
  queue : s.queue.About known
  trace : ∀ e ∈ s.world.trace, ∀ key n, e.worker = .reconcile key n → known key

/-- The state is reached by a run of executions in which no two reconciliations of one key are
at work together. -/
def Refines (H : Hasher) (r : Reconciler) (d : Dispatcher) (known : ResourceKey → Prop) (t : Time)
    (s : Site Q) (phases : List Phase) : Prop :=
  ∃ threads, threads.Perm (s.threads phases) ∧
    Runs H (executes r d known) exclusive (initial Execution t) ⟨s.world, threads⟩

section Familiar

theorem Familiar.turn (hs : Familiar known s) (h : Turns (r.reconcile H) s φ s' φ')
    (haccounts : s.queue.Accounts)
    (hheld : ∀ key, φ.key = some key → key ∈ s.queue.view.processing) :
    Familiar known s' := by
  have hmine : ∀ key, φ.key = some key → known key :=
    fun key hkey => hs.queue.processing key (hheld key hkey)
  cases h with
  | got h => exact ⟨hs.queue.get haccounts h, hs.trace⟩
  | shut h => exact ⟨hs.queue.get haccounts h, hs.trace⟩
  | call next h =>
    refine ⟨hs.queue, fun e he key n hname => ?_⟩
    rcases List.mem_append.mp he with he | he
    · exact hs.trace e he key n hname
    · rw [List.mem_singleton.mp he] at hname
      cases hname
      exact hmine _ rfl
  | retried key err =>
    exact ⟨hs.queue.putOff (hmine key rfl) (view_addRateLimited _ _), hs.trace⟩
  | settled key h | succeeded key h => exact ⟨hs.queue.congr (view_forget _ _), hs.trace⟩
  | delayed key hdelay =>
    exact ⟨hs.queue.putOff (hmine key rfl) (view_addAfter _ _ (toInt_pos hdelay)), hs.trace⟩
  | closed key result => exact ⟨hs.queue.done (hheld key rfl), hs.trace⟩
  | _ => exact hs

theorem Familiar.pass (hs : Familiar known s) (h : Passes H d known s s')
    (hdispatches : ∀ t ∈ s.dispatches, ∃ n, t.1 = .dispatch n) : Familiar known s' := by
  have htrace : ∀ e ∈ s'.world.trace, ∀ key n, e.worker = .reconcile key n → known key := by
    obtain ⟨events, htrace, hothers⟩ := (h.alike hdispatches).trace
    intro e he key n hname
    rw [htrace] at he
    rcases List.mem_append.mp he with he | he
    · exact hs.trace e he key n hname
    · obtain ⟨m, hm⟩ := hothers e he
      rw [hm] at hname
      cases hname
  refine ⟨?_, htrace⟩
  cases h with
  | callback h hknown => exact hs.queue.add hknown
  | sweep hknown => exact hs.queue.add hknown
  | due h => exact hs.queue.fire h
  | unsynced h | shut h => exact hs.queue.shutDown
  | _ => exact hs.queue

end Familiar

section Refines

variable {t : Time}

/-- A step that leaves the executions as they are. -/
theorem Refines.same (hs : Refines H r d known t s phases) {phases' : List Phase}
    (hthreads : s'.threads phases' = s.threads phases) (hworld : s'.world = s.world) :
    Refines H r d known t s' phases' := by
  obtain ⟨threads, hperm, hrun⟩ := hs
  exact ⟨threads, by rwa [hthreads], by rwa [hworld]⟩

theorem threads_middle (s : Site Q) :
    s.threads (ps ++ φ :: qs) =
      ps.filterMap (Phase.thread s) ++ ((φ.thread s).toList ++
        (qs.filterMap (Phase.thread s) ++ s.dispatches)) := by
  rw [Site.threads, List.filterMap_append, List.filterMap_cons]
  cases φ.thread s <;> simp

/-- The thread of one worker, and the others. -/
theorem threads_perm {thread : Execution × Eff Unit} (h : φ.thread s = some thread) :
    (s.threads (ps ++ φ :: qs)).Perm (thread :: s.threads (ps ++ qs)) := by
  rw [threads_middle, h, Site.threads, List.filterMap_append, Option.toList_some,
    List.append_assoc]
  exact List.perm_middle

theorem threads_none (h : φ.thread s = none) :
    s.threads (ps ++ φ :: qs) = s.threads (ps ++ qs) := by
  rw [threads_middle, h, Site.threads, List.filterMap_append, Option.toList_none, List.nil_append,
    List.append_assoc]

/-- They depend on the names of the reconciliations only. -/
theorem threads_congr (h : ∀ φ ∈ phases, ∀ key, φ.key = some key → s'.latest key = s.latest key)
    (hdispatches : s'.dispatches = s.dispatches) : s'.threads phases = s.threads phases := by
  rw [Site.threads, Site.threads, hdispatches,
    List.filterMap_congr fun φ hφ => Phase.thread_eq (h φ hφ)]

theorem Alike.threads (h : Alike s s') (hdispatches : s'.dispatches = s.dispatches) :
    s'.threads phases = s.threads phases :=
  threads_congr (fun _ _ key _ => h.latest key) hdispatches

/-- The names of the executions that are at work. -/
theorem mem_threads {i : Execution} (h : i ∈ (s.threads phases).map Prod.fst) :
    (∃ key ∈ phases.filterMap Phase.key, i = s.latest key) ∨ i ∈ s.dispatches.map Prod.fst := by
  rw [Site.threads, List.map_append, List.mem_append] at h
  refine h.imp_left fun h => ?_
  obtain ⟨thread, hthread, rfl⟩ := List.mem_map.mp h
  obtain ⟨φ, hφ, hthread⟩ := List.mem_filterMap.mp hthread
  obtain ⟨key, hkey, hname⟩ := Phase.thread_name hthread
  exact ⟨key, List.mem_filterMap.mpr ⟨φ, hφ, hkey⟩, hname⟩

/-- A worker that gets a key starts an execution. -/
theorem Refines.got (hs : Refines H r d known t s (ps ++ .idle :: qs))
    (hrecorded : Recorded (r.reconcile H) s (ps ++ .idle :: qs)) (haccounts : s.queue.Accounts)
    (hheld : ∀ k, k ∈ s.queue.view.processing ↔ k ∈ (ps ++ .idle :: qs).filterMap Phase.key)
    (hfamiliar : Familiar known s) {key : ResourceKey} {queue : Tracked Q}
    (hget : s.queue.get = some (some key, queue)) :
    Refines H r d known t { s with queue := queue }
      (ps ++ .working key (r.reconcile H key) :: qs) := by
  obtain ⟨threads, hperm, hrun⟩ := hs
  obtain ⟨hqueue, hlog, -⟩ := get_eq_some hget
  obtain ⟨hdirty, hfree⟩ := (haccounts.ordered.mem_queue key).mp (by simp [hqueue])
  have hself : started queue key = started s.queue key + 1 := by simp [started, hlog]
  have hsame : ∀ φ ∈ ps ++ qs, ∀ k, φ.key = some k →
      Site.latest { s with queue := queue } k = s.latest k := by
    intro φ hφ k hk
    have hne : k ≠ key := by
      rintro rfl
      refine hfree ((hheld k).mpr (List.mem_filterMap.mpr ⟨φ, ?_, hk⟩))
      rcases List.mem_append.mp hφ with hφ | hφ <;> simp [hφ]
    simp [Site.latest, started, hlog, Ne.symm hne]
  have hnew : .reconcile key (started queue key) ∉ threads.map Prod.fst := by
    rw [(hperm.map Prod.fst).mem_iff]
    intro hi
    rcases mem_threads hi with ⟨k, hk, heq⟩ | hi
    · obtain rfl : key = k := (Execution.reconcile.inj heq).1
      exact hfree ((hheld key).mpr hk)
    · obtain ⟨thread, hthread, heq⟩ := List.mem_map.mp hi
      obtain ⟨n, hn⟩ := hrecorded.dispatches thread hthread
      rw [hn] at heq
      cases heq
  have hunused : s.world.Unused (.reconcile key (started queue key)) := by
    refine ⟨fun e he heq => ?_, fun hgone => ?_⟩
    · have hle := (hrecorded.names e he key _ heq).2
      omega
    · have hle := ((hrecorded.gone key _).mp hgone).2.1
      omega
  have hstart : starts H (executes r d known) s.world (.reconcile key (started queue key))
      ((r.reconcile H key).bind fun _ => .ret ()) :=
    ⟨⟨.reconcile r key, ⟨hfamiliar.queue.dirty key hdirty, rfl⟩, rfl⟩, hunused⟩
  refine ⟨threads ++ [(.reconcile key (started queue key),
    (r.reconcile H key).bind fun _ => .ret ())], ?_, hrun.tail (.start _ _ _ _ hstart hnew)⟩
  refine (List.perm_append_comm.trans ?_).trans (threads_perm rfl).symm
  have hidle : s.threads (ps ++ .idle :: qs) = s.threads (ps ++ qs) := threads_none rfl
  rw [threads_congr hsame rfl, ← hidle]
  exact hperm.cons _

/-- Two reconciliations of one resource are not at work together. -/
theorem exclusive_latest (hrecorded : Recorded (r.reconcile H) s phases)
    (hfamiliar : Familiar known s)
    (hknown : ∀ k k', known k → known k' → k.uid = k'.uid → k = k') {key : ResourceKey}
    (hkey : key ∈ s.queue.view.processing) (op : Op) : exclusive (s.latest key) op s.world := by
  rintro _ _ heq e he other m hname huid
  cases heq
  obtain rfl := hknown other key (hfamiliar.trace e he other m hname)
    (hfamiliar.queue.processing key hkey) huid
  obtain ⟨hpos, hle⟩ := hrecorded.names e he other m hname
  rw [hname]
  by_cases hlast : m = started s.queue other
  · exact Or.inl (by rw [hlast, Site.latest])
  · exact Or.inr ((hrecorded.gone other m).mpr ⟨hpos, hle, fun heq => absurd heq hlast⟩)

theorem Refines.turn (hs : Refines H r d known t s (ps ++ φ :: qs))
    (h : Turns (r.reconcile H) s φ s' φ')
    (hrecorded : Recorded (r.reconcile H) s (ps ++ φ :: qs)) (haccounts : s.queue.Accounts)
    (hheld : ∀ k, k ∈ s.queue.view.processing ↔ k ∈ (ps ++ φ :: qs).filterMap Phase.key)
    (hfamiliar : Familiar known s)
    (hknown : ∀ k k', known k → known k' → k.uid = k'.uid → k = k') :
    Refines H r d known t s' (ps ++ φ' :: qs) := by
  -- The remaining turns leave the execution where it is, or concern none.
  have hquiet : Alike s s' → s'.world = s.world → s'.dispatches = s.dispatches →
      φ'.thread s = φ.thread s → Refines H r d known t s' (ps ++ φ' :: qs) := by
    intro halike hworld hdispatches hthread
    refine hs.same ((halike.threads hdispatches).trans ?_) hworld
    rw [threads_middle, threads_middle, hthread]
  cases h with
  | got hget => exact hs.got hrecorded haccounts hheld hfamiliar hget
  | @call key op reply store next h =>
    obtain ⟨threads, hperm, hrun⟩ := hs
    have hkey : key ∈ s.queue.view.processing :=
      (hheld key).mpr (List.mem_filterMap.mpr ⟨.working key (.call op next), by simp, rfl⟩)
    obtain ⟨threads', hperm', hstep⟩ := step_act_perm
      (M := (machine Execution).restrict exclusive) (hperm.trans (threads_perm rfl))
      ⟨exclusive_latest hrecorded hfamiliar hknown hkey op, store, h, rfl⟩
    exact ⟨threads', hperm'.trans (threads_perm rfl).symm, hrun.tail hstep⟩
  | closed key result =>
    obtain ⟨threads, hperm, hrun⟩ := hs
    obtain ⟨threads', hperm', hstep⟩ := step_stop_perm
      (M := (machine Execution).restrict exclusive) (hperm.trans (threads_perm rfl))
    refine ⟨threads', hperm'.trans (List.Perm.of_eq ?_), hrun.tail hstep⟩
    rw [threads_none rfl]
    symm
    refine threads_congr (fun φ _ k _ => ?_) rfl
    simp [Site.latest, started, Tracked.done]
  | shut hget => exact hquiet (Quiet.alike (quiet_get hget) rfl id rfl) rfl rfl rfl
  | retried key err =>
    exact hquiet (Quiet.alike (quiet_addRateLimited _ _) rfl id rfl) rfl rfl rfl
  | settled key h | succeeded key h =>
    exact hquiet (Quiet.alike (quiet_forget _ _) rfl id rfl) rfl rfl rfl
  | delayed key hdelay =>
    exact hquiet (Quiet.alike (quiet_addAfter _ _ (toInt_pos hdelay)) rfl id rfl) rfl rfl rfl
  | _ => exact hquiet (Quiet.alike (.refl _) rfl id rfl) rfl rfl rfl

theorem Refines.pass (hs : Refines H r d known t s phases) (h : Passes H d known s s')
    (hdispatches : ∀ t ∈ s.dispatches, ∃ n, t.1 = .dispatch n) :
    Refines H r d known t s' phases := by
  have halike := h.alike hdispatches
  cases h with
  | @dispatch world dispatches h =>
    obtain ⟨threads, hperm, hrun⟩ := hs
    have hguard : ∀ thread ∈ s.dispatches, ∀ op, exclusive thread.1 op s.world := by
      intro thread hthread op key n heq
      obtain ⟨m, hm⟩ := hdispatches thread hthread
      rw [hm] at heq
      cases heq
    have hstart : ∀ i p, starts H (dispatching d) s.world i p →
        starts H (executes r d known) s.world i p ∧
          i ∉ (phases.filterMap (Phase.thread s)).map Prod.fst := by
      rintro i p ⟨⟨task, ⟨⟨n, rfl⟩, rfl⟩, rfl⟩, hunused⟩
      refine ⟨⟨⟨.dispatch d, rfl, rfl⟩, hunused⟩, fun hi => ?_⟩
      obtain ⟨thread, hthread, heq⟩ := List.mem_map.mp hi
      obtain ⟨φ, hφ, hthread⟩ := List.mem_filterMap.mp hthread
      obtain ⟨key, -, hname⟩ := Phase.thread_name hthread
      rw [heq] at hname
      cases hname
    obtain ⟨threads', hperm', hstep⟩ :=
      step_beside (starts H (executes r d known)) exclusive h hguard hstart hperm
    refine ⟨threads', hperm'.trans (List.Perm.of_eq ?_), hrun.tail hstep⟩
    rw [Site.threads, List.filterMap_congr fun φ hφ =>
      Phase.thread_eq fun key _ => (halike.latest key).symm]
  | _ => exact hs.same (halike.threads rfl) rfl

end Refines

section Runs

variable {manager : Manager} {t : Time} {c c' : Plant Q}

/-- The invariant of the refinement. -/
structure Refined (H : Hasher) (r : Reconciler) (d : Dispatcher) (known : ResourceKey → Prop)
    (workers : Nat) (t : Time) (s : Site Q) (phases : List Phase) : Prop where
  orderly : Orderly workers s phases
  recorded : Recorded (r.reconcile H) s phases
  familiar : Familiar known s
  refines : Refines H r d known t s phases

theorem Refined.progress (hs : Refined H r d known workers t s phases)
    (hknown : ∀ k k', known k → known k' → k.uid = k'.uid → k = k') {phases' : List Phase}
    (h : Progress H (r.reconcile H) d known workers s phases s' phases') :
    Refined H r d known workers t s' phases' := by
  obtain ⟨horderly, hrecorded, hfamiliar, hrefines⟩ := hs
  suffices Familiar known s' ∧ Refines H r d known t s' phases' from
    ⟨horderly.progress h, hrecorded.progress horderly h, this.1, this.2⟩
  cases h with
  | @turn _ φ φ' ps qs h =>
    exact ⟨hfamiliar.turn h horderly.accounts horderly.holds,
      hrefines.turn h hrecorded horderly.accounts horderly.held hfamiliar hknown⟩
  | pass phases h =>
    exact ⟨hfamiliar.pass h hrecorded.dispatches, hrefines.pass h hrecorded.dispatches⟩
  | launched h =>
    refine ⟨⟨hfamiliar.queue, hfamiliar.trace⟩, hrefines.same ?_ rfl⟩
    rw [Site.threads, List.filterMap_replicate_of_none rfl]
    rfl
  | joined h hgone =>
    have halike : Alike s { s with stage := .finished } := Quiet.alike (.refl _) rfl id rfl
    exact ⟨⟨hfamiliar.queue, hfamiliar.trace⟩, hrefines.same (halike.threads rfl) rfl⟩

section Example

open Shift Controller.Scenario RuleRaven.Scenario

end Example

end Runs

end RuleRaven.Kube
