import RuleRaven.System.Lease
import RuleRaven.System.Rules

namespace RuleRaven

open Framework Kube Controller Notify

variable {ι : Type}

theorem outside_quiet {op : Op} (hop : op.outside) (i : ι) (reply : op.Reply) (clock : Time)
    (s s' : Store) : (⟨i, op, reply, clock, s, s'⟩ : Event ι).claim? = none ∧
      (⟨i, op, reply, clock, s, s'⟩ : Event ι).finalizes = none := by
  cases op with
  | store op => exact hop.elim
  | _ => exact ⟨rfl, rfl⟩

theorem Idle.outside {i : ι} {v : World ι} {op : Op} {reply : op.Reply} (hop : op.outside)
    (h : Idle i v) : Idle i (v.extend i op reply v.store) :=
  have hquiet := outside_quiet hop i reply v.clock v.store v.store
  h.extend hquiet.2 hquiet.1

theorem Holding.outside {i : ι} {owner row : String} {v : World ι} {op : Op} {reply : op.Reply}
    (hop : op.outside) (h : Holding i owner row v) :
    Holding i owner row (v.extend i op reply v.store) :=
  have hquiet := outside_quiet hop i reply v.clock v.store v.store
  h.extend hquiet.2 hquiet.1

theorem stable_clock (i : ι) (t : Time) : Stable i fun w : World ι => t ≤ w.clock :=
  fun _ _ hr h => h.trans hr.clock

/-- What `Reconcile` does to the outbox: it may add pending rows. -/
theorem outbox_records {s t : Store} {op : StoreOp} (hop : Reconciler.records (.store op))
    (h : s.Wrote op t) : ∀ d ∈ t.outbox.rows, d ∈ s.outbox.rows ∨
      (d.status ≠ .delivering ∧ ∀ b ∈ s.outbox.rows, b.id ≠ d.id) := by
  intro d hd
  cases h with
  | nothing => exact Or.inl hd
  | incident _ => exact Or.inl hd
  | snapshot _ => exact Or.inl hd
  | @commit request _ h =>
    have hunique := t.outbox.id_unique
    rw [h.outbox, List.map_append, List.nodup_append] at hunique
    rw [h.outbox, List.mem_append, List.mem_map] at hd
    refine hd.imp_right ?_
    rintro ⟨n, hn, rfl⟩
    refine ⟨?_, fun b hb heq => ?_⟩
    · show n.status ≠ .delivering
      rw [hop n hn]
      decide
    · exact hunique.2.2 b.id (List.mem_map_of_mem hb) _
        (List.mem_map_of_mem (List.mem_map_of_mem hn)) heq
  | claim _ => exact hop.elim
  | finalize hfinal _ _ => cases hfinal <;> exact hop.elim

section Calls

variable [DecidableEq ι] {i : ι} {w : World ι} {α : Type}

/-- The program keeps the leases in order, as execution `i` from `w` on. -/
def Leases (i : ι) (Q : α → World ι → Prop) (p : Eff α) (w : World ι) : Prop :=
  Keeps (fun i op w => claimsUnshared i op w = true) Leased i Q p w

theorem leases_outside {P : World ι → Prop} (hP : Stable i P)
    (hext : ∀ v op (reply : op.Reply), op.outside → P v → P (v.extend i op reply v.store))
    {p : Eff α} (hp : p.Only Op.outside) (hw : P w) : Leases i (fun _ w' => P w') p w := by
  refine keeps_only hP (fun op v reply s' hop hinv hv _ hanswer => ?_) hp hw
  obtain rfl := hanswer.outside hop
  exact ⟨hinv.unchanged, hext v op reply hop hv⟩

theorem leases_now {P : World ι → Prop} (hP : Stable i P)
    (hext : ∀ v op (reply : op.Reply), op.outside → P v → P (v.extend i op reply v.store))
    (hw : P w) : Leases i (fun now w' => P w' ∧ now ≤ w'.clock) Eff.now w := by
  refine keeps_perform hP (fun v reply s' hinv hv _ hanswer => ?_) hw
  obtain ⟨rfl, rfl⟩ := hanswer
  exact ⟨hinv.unchanged, hext v .now _ trivial hv, le_rfl⟩

/-- A delivery that was claimed is held. -/
theorem leases_claim {request : ClaimRequest} (hidle : Idle i w) (hnow : request.now ≤ w.clock) :
    Leases i (fun reply w' => ∀ delivery, reply = .ok (some delivery) →
      Holding i request.workerID delivery.id w') (Eff.store (.outboxClaim request)) w := by
  refine keeps_perform ((stable_idle i).and (stable_clock i request.now))
    (fun v reply s' hinv hv hguard hanswer => ⟨?_, ?_⟩) ⟨hidle, hnow⟩
  · rcases StoreAnswer.state hanswer with rfl | rfl
    · exact hinv.unchanged
    · cases hd : v.store.claimable request.now with
      | none =>
        have hstore : (v.store.apply (.outboxClaim request)).2 = v.store := by
          simp only [Store.apply, Store.claim_eq_none hd]
        rw [hstore]
        exact hinv.unchanged
      | some d => exact hinv.claim hd hv.2 hguard
  · rintro delivery rfl
    obtain ⟨d, hd, rfl, rfl⟩ := claim_answered hanswer
    exact hv.1.claim (claim?_claim hd i _ v.clock) rfl

/-- The holder of a row finalizes it, or finds that it cannot. -/
theorem leases_finalize {op : StoreOp} {owner row : String}
    (change : Table.Change (fun d : Delivery => d.id) Delivery.eventKey)
    (hop : ∀ s : Store, (s.apply op).2 = (s.finalize row owner change).2)
    (hchange : ∀ b, (change.apply b).status ≠ .delivering)
    (hclaim : ∀ reply clock s s', (⟨i, .store op, reply, clock, s, s'⟩ : Event ι).claim? = none)
    (hfinal : ∀ reply clock s s',
      (⟨i, .store op, reply, clock, s, s'⟩ : Event ι).finalizes = some row)
    (hw : Holding i owner row w) : Leases i (fun _ _ => True) (Eff.store op) w := by
  refine keeps_perform (stable_holding i owner row)
    (fun v reply s' hinv hv _ hanswer => ⟨?_, trivial⟩) hw
  rcases StoreAnswer.state hanswer with rfl | rfl
  · exact hinv.unchanged
  · rw [hop]
    exact hinv.finalize hv hchange (hclaim _ _ _) (hfinal _ _ _)

theorem rescheduleChange_status (request : RescheduleRequest) (b : Delivery) :
    ((rescheduleChange request).apply b).status ≠ .delivering := by
  unfold rescheduleChange rescheduleChangeAt
  cases request.failure <;> simp

theorem leases_dispatchOne (d : Dispatcher) (hw : Idle i w) :
    Leases i (fun _ _ => True) d.dispatchOne w := by
  have hheld : ∀ (delivery : Delivery) {β : Type} (p : Eff β) (v : World ι),
      p.Only Op.outside → Holding i d.workerID delivery.id v →
        Leases i (fun _ => Holding i d.workerID delivery.id) p v :=
    fun delivery β p v hp hv =>
      leases_outside (stable_holding i _ _) (fun _ _ _ hop => Holding.outside hop) hp hv
  refine keeps_dispatchOne d (Idle i) (fun now v => Idle i v ∧ now ≤ v.clock)
    (fun _ delivery => Holding i d.workerID delivery.id)
    (fun delivery _ => Holding i d.workerID delivery.id)
    (fun v hv => leases_outside (stable_idle i) (fun _ _ _ hop => Idle.outside hop)
      (Eff.only_ctxErr trivial) hv)
    (fun v hv => leases_now (stable_idle i) (fun _ _ _ hop => Idle.outside hop) hv)
    (fun now v hv => leases_claim hv.1 hv.2)
    (fun delivery now v hv => hheld delivery _ v (d.attempt_only fun _ _ => trivial) hv)
    (fun delivery _ v hv => hheld delivery _ v (Eff.only_ctxErr trivial) hv)
    (fun delivery _ v hv => hheld delivery _ v (Eff.only_now trivial) hv)
    (fun delivery now v hv => ?_) (fun delivery err now v hv => ?_) hw
  · exact leases_finalize (completeChange (d.completeRequest delivery now)) (fun _ => rfl)
      (fun _ h => by cases h) (fun _ _ _ _ => rfl) (fun _ _ _ _ => rfl) hv
  · exact leases_finalize (rescheduleChange (d.rescheduleRequest delivery err now))
      (fun _ => rfl) (rescheduleChange_status _) (fun _ _ _ _ => rfl) (fun _ _ _ _ => rfl) hv

theorem leases_reconcile {H : Hasher} (r : Reconciler) (key : ResourceKey) :
    Leases i (fun _ _ => True) (r.reconcile H key) w := by
  refine keeps_only (stable_const i True)
    (fun op v reply s' hop hinv _ _ hanswer => ⟨?_, trivial⟩) (Reconciler.reconcile_only key)
    trivial
  by_cases hout : op.outside
  · obtain rfl := hanswer.outside hout
    exact hinv.unchanged
  · cases op with
    | store op =>
      refine hinv.quiet ?_ (fun _ h => ?_) hanswer.grows
        (outbox_records hop (StoreAnswer.wrote hanswer))
      · cases op <;> first | exact hop.elim | rfl
      · cases op <;> first | exact hop.elim | cases h
    | _ => exact absurd trivial hout

end Calls

/-- In every run in which a row is claimed only while no other execution that could still
complete or reschedule it has claimed it in the same worker's name, leases are fenced and
exclusive. -/
theorem leases_fenced_exclusive [DecidableEq ι] (H : Hasher) (tasks : ι → Task → Prop) (t : Time)
    (c : Framework.Config ι Op Op.Reply Unit (World ι))
    (hrun : Runs H tasks (fun i op w => claimsUnshared i op w = true) (initial ι t) c) :
    Fenced c.state ∧ Exclusive c.state := by
  have hleased : Leased c.state := by
    refine runs_keep ?_ ?_ ?_ ?_ hrun
    · intro t
      refine ⟨fun past e future row h => ?_, fun row h => absurd rfl h, by simp, by simp [claimsOn],
        by simp [claimsOn]⟩
      simp at h
    · intro w t ht hw
      exact ⟨hw.fenced, hw.claimed, hw.shown, fun row c hc =>
        (hw.expired row c hc).imp_right fun h => h.trans ht, hw.unshared⟩
    · intro w gone hw hgone
      refine ⟨hw.fenced, hw.claimed, hw.shown, hw.expired, fun row c hc last hlast howner => ?_⟩
      have hsettled := hw.unshared row c hc last hlast howner
      simp only [World.settled, Bool.or_eq_true, List.contains_eq_mem, decide_eq_true_eq]
        at hsettled ⊢
      exact hsettled.imp_left (hgone c.holder)
    · intro i task w _ hunused _
      cases task with
      | reconcile r key =>
        exact keeps_bind (leases_reconcile r key) fun _ _ _ => keeps_ret trivial
      | dispatch d =>
        exact keeps_bind (leases_dispatchOne d (idle_of_unused hunused)) fun _ _ _ =>
          keeps_ret trivial
  exact ⟨hleased.fenced, leased_exclusive hleased⟩

instance [DecidableEq ι] (past : List (Event ι)) (i : ι) (row : String) :
    Decidable (Superseded past i row) := inferInstanceAs (Decidable (∃ c ∈ _, _))

/-- Whether the event at a position of the trace breaks the fence. -/
def breaksFence [DecidableEq ι] (trace : List (Event ι)) (k : Nat) : Bool :=
  match trace.drop k with
  | [] => false
  | e :: _ => e.finalizes.any fun row =>
      decide (Superseded (trace.take k) e.worker row ∧ e.after ≠ e.before)

theorem not_fenced [DecidableEq ι] {w : World ι} {k : Nat} (h : breaksFence w.trace k = true) :
    ¬Fenced w := by
  intro hfenced
  unfold breaksFence at h
  split at h
  · cases h
  · rename_i e future hdrop
    obtain ⟨row, hrow, hbreaks⟩ := (Option.any_eq_true _ _).mp h
    obtain ⟨hsuper, hchanged⟩ := of_decide_eq_true hbreaks
    refine hchanged (hfenced (w.trace.take k) e future row ?_ hrow hsuper)
    rw [← hdrop, List.take_append_drop]

/-- Whether two executions hold live claims on a row. -/
def sharesRow [DecidableEq ι] (w : World ι) (row : String) : Bool :=
  (claimsOn w.trace row).any fun c => (claimsOn w.trace row).any fun c' =>
    decide (c.holder ≠ c'.holder) && (decide (w.clock < c.leaseUntil) && !w.finalized c) &&
      (decide (w.clock < c'.leaseUntil) && !w.finalized c')

theorem not_exclusive [DecidableEq ι] {w : World ι} {row : String} (h : sharesRow w row = true) :
    ¬Exclusive w := by
  intro hexclusive
  obtain ⟨c, hc, hrest⟩ := List.any_eq_true.mp h
  obtain ⟨c', hc', hboth⟩ := List.any_eq_true.mp hrest
  simp only [Bool.and_eq_true, decide_eq_true_eq, Bool.not_eq_true'] at hboth
  exact hboth.1.1 (hexclusive row c hc c' hc' hboth.1.2 hboth.2)

namespace Scenario

open Controller.Scenario

theorem hook_visible : ∀ n ∈ ["hook"], isBlank n = false := by decide

theorem hook_nodup : ["hook"].Nodup := List.nodup_singleton _

/-- A dispatcher of a cluster, with the production lease of thirty seconds. -/
def dispatcher (clusterID : String) (hc : isBlank clusterID = false) (notifiers : List String)
    (hv : ∀ n ∈ notifiers, isBlank n = false) (hn : notifiers.Nodup) : Dispatcher where
  notifiers := notifiers
  workerID := clusterID ++ "-1"
  workers := 2
  clusterID := clusterID
  leaseDuration := 30000000000
  maxAttempts := 5
  initialBackoff := 1000000000
  maxBackoff := 60000000000
  deliveredExpiry := 0
  failedExpiry := 0
  notifiers_visible := hv
  notifiers_nodup := hn
  identified := ⟨by rw [isBlank_append, hc, Bool.false_and], hc⟩
  positive := by decide
  initialBackoff_le := by decide
  expiries_nonneg := by decide

theorem c_visible : isBlank "c" = false := by decide

def hooked : Dispatcher := dispatcher "c" c_visible ["hook"] hook_visible hook_nodup

/-- The destination is not reachable. -/
def unreachable : DeliveryError := { classified := some { retryable := true, kind := "network" } }

/-- The next calls of a dispatching execution. -/
def dispatches (i n : Nat) (fate : Option DeliveryError) : Turn :=
  .calls i n (jobCall 0 1).env fate

/-- A delivery fails in time and is retried by another execution of the same worker. -/
def retried : List Turn :=
  [.start 0 (.reconcile notifying (jobCall 0 1).key), dispatches 0 20 none,
    .start 1 (.dispatch hooked), dispatches 1 20 (some unreachable), .wait 2000000000,
    .start 2 (.dispatch hooked), dispatches 2 20 none]

/-- A delivery outlives its lease. Another execution of the same worker claims the row, then
the first one reschedules it, and a third one claims it again. -/
def outlived : List Turn :=
  [.start 0 (.reconcile notifying (jobCall 0 1).key), dispatches 0 20 none,
    .start 1 (.dispatch hooked), dispatches 1 3 none, .wait 31000000000,
    .start 2 (.dispatch hooked), dispatches 2 3 none, dispatches 1 20 (some unreachable),
    .wait 2000000000, .start 3 (.dispatch hooked), dispatches 3 3 none]

end Scenario

open Scenario Controller.Scenario

/-- A retry by the same worker is in order. -/
theorem retried_fenced_exclusive :
    ∃ c, Runs checksumHasher (fun _ _ => True) (fun i op w => claimsUnshared i op w = true)
        (initial Nat noon) c ∧
      (c.state.store.outbox.rows.map fun d => (d.status, d.attempts)) = [(.delivered, 2)] ∧
      Fenced c.state ∧ Exclusive c.state := by
  have hfacts : (play checksumHasher (fun _ _ => True) claimsUnshared retried
      (initial Nat noon)).any (fun c =>
        decide ((c.state.store.outbox.rows.map fun d => (d.status, d.attempts)) =
          [(.delivered, 2)])) = true := by
    decide +kernel
  obtain ⟨c, hplay, hrows⟩ := (Option.any_eq_true _ _).mp hfacts
  have hrun := runs_of_play hplay
  exact ⟨c, hrun, of_decide_eq_true hrows,
    leases_fenced_exclusive checksumHasher (fun _ _ => True) noon c hrun⟩

/-- An execution that was superseded reschedules the row, and two executions hold it. -/
theorem outlived_lease_shared :
    ∃ c, Runs checksumHasher (fun _ _ => True) (fun _ _ _ => True) (initial Nat noon) c ∧
      ¬Fenced c.state ∧ ¬Exclusive c.state := by
  have hfacts : (play checksumHasher (fun _ _ => True) (fun _ _ _ => true) outlived
      (initial Nat noon)).any (fun c =>
        (List.range c.state.trace.length).any (breaksFence c.state.trace) &&
          c.state.store.outbox.rows.any fun d => sharesRow c.state d.id) = true := by
    decide +kernel
  obtain ⟨c, hplay, hbreaks⟩ := (Option.any_eq_true _ _).mp hfacts
  rw [Bool.and_eq_true, List.any_eq_true, List.any_eq_true] at hbreaks
  obtain ⟨⟨k, -, hfence⟩, d, -, hshares⟩ := hbreaks
  exact ⟨c, steps_restrict_mono (fun _ _ _ _ => trivial) (runs_of_play hplay),
    not_fenced hfence, not_exclusive hshares⟩

end RuleRaven
