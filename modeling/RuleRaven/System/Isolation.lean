import RuleRaven.System.Dispatching

namespace RuleRaven

open Framework Kube Controller Notify

/-- The delivery comes from an evaluation of an incident of the cluster. -/
def Store.ProducedBy (s : Store) (deliveryID clusterID : String) : Prop :=
  ∃ d ∈ s.outbox.rows, ∃ e ∈ s.evaluations.rows, ∃ i ∈ s.incidents.rows,
    d.id = deliveryID ∧ d.evaluationID = e.id ∧ e.incidentID = i.id ∧ i.clusterID = clusterID

instance (s : Store) (deliveryID clusterID : String) :
    Decidable (s.ProducedBy deliveryID clusterID) :=
  inferInstanceAs (Decidable (∃ d ∈ _, ∃ e ∈ _, ∃ i ∈ _, _))

section Produced

variable {s t : Store} {deliveryID clusterID : String}

theorem Store.ProducedBy.grows (h : s.ProducedBy deliveryID clusterID) (hgrow : s.Grows t) :
    t.ProducedBy deliveryID clusterID := by
  obtain ⟨d, hd, e, he, i, hi, hid, heval, hincident, hcluster⟩ := h
  obtain ⟨d', hd', hid', hkey⟩ := hgrow.outbox d hd
  obtain ⟨i', hi', hiid, -, hicluster, -⟩ := hgrow.incidents i hi
  have heval' : d'.evaluationID = d.evaluationID := congrArg Prod.fst hkey
  exact ⟨d', hd', e, hgrow.evaluation he, i', hi', hid'.trans hid, heval'.trans heval,
    hincident.trans hiid.symm, hicluster.trans hcluster⟩

/-- A delivery comes from one cluster. -/
theorem Store.ProducedBy.unique {other : String} (h : s.ProducedBy deliveryID clusterID)
    (h' : s.ProducedBy deliveryID other) : clusterID = other := by
  obtain ⟨d, hd, e, he, i, hi, hid, heval, hincident, hcluster⟩ := h
  obtain ⟨d', hd', e', he', i', hi', hid', heval', hincident', hcluster'⟩ := h'
  obtain rfl := Table.eq_of_id hd hd' (hid.trans hid'.symm)
  obtain rfl := Table.eq_of_id he he' (heval.symm.trans heval')
  obtain rfl := Table.eq_of_id hi hi' (hincident.symm.trans hincident')
  exact hcluster.symm.trans hcluster'

end Produced

def Task.clusterID : Task → String
  | .reconcile r _ => r.clusterID
  | .dispatch d => d.clusterID

variable {ι : Type}

/-- The event is no delivery, completion or rescheduling of a row of another cluster than the
one its execution works for, and what is delivered names that cluster. -/
def Event.AtHome (home : ι → String) (e : Event ι) : Prop :=
  match e.op with
  | .deliver _ envelope => e.before.ProducedBy envelope.id (home e.worker) ∧
      envelope.source = clusterSource (home e.worker)
  | .store (.outboxComplete request) => e.before.ProducedBy request.id (home e.worker)
  | .store (.outboxReschedule request) => e.before.ProducedBy request.id (home e.worker)
  | _ => True

def Isolated (home : ι → String) (w : World ι) : Prop := ∀ e ∈ w.trace, e.AtHome home

/-- Whoever claims finds a row of its own cluster first. -/
def claimsAtHome (home : ι → String) (i : ι) : Op → World ι → Bool
  | .store (.outboxClaim request), w =>
    (w.store.claimable request.now).all fun d => decide (w.store.ProducedBy d.id (home i))
  | _, _ => true

section Calls

variable {home : ι → String} {i : ι} {w : World ι} {α : Type}

theorem Isolated.extend (hw : Isolated home w) {op : Op} {reply : op.Reply} {s' : Store}
    (h : (⟨i, op, reply, w.clock, w.store, s'⟩ : Event ι).AtHome home) :
    Isolated home (w.extend i op reply s') := by
  intro e he
  rcases List.mem_append.mp he with he | he
  · exact hw e he
  · rw [List.mem_singleton.mp he]
    exact h

/-- The program stays within the rows of its cluster, as execution `i` from `w` on. -/
def Stays (home : ι → String) (i : ι) (Q : α → World ι → Prop) (p : Eff α) (w : World ι) : Prop :=
  Keeps (fun i op w => claimsAtHome home i op w = true) (Isolated home) i Q p w

/-- The execution holds a row of its cluster. -/
def Own (home : ι → String) (i : ι) (row : String) (w : World ι) : Prop :=
  w.store.ProducedBy row (home i)

theorem stable_own (home : ι → String) (i : ι) (row : String) : Stable i (Own home i row) :=
  fun _ _ hr h => h.grows hr.store

/-- Calls that touch only rows which the execution owns. -/
theorem stays_only {O : Op → Prop} {P : World ι → Prop} (hP : Stable i P)
    (hext : ∀ v op (reply : op.Reply) s', v.store.Grows s' → P v → P (v.extend i op reply s'))
    (hO : ∀ op v (reply : op.Reply) s', O op → P v →
      (⟨i, op, reply, v.clock, v.store, s'⟩ : Event ι).AtHome home)
    {p : Eff α} (hp : p.Only O) (hw : P w) : Stays home i (fun _ w' => P w') p w := by
  refine keeps_only hP (fun op v reply s' hop hinv hv _ hanswer => ?_) hp hw
  exact ⟨hinv.extend (hO op v reply s' hop hv), hext v op reply s' hanswer.grows hv⟩

theorem stays_own {O : Op → Prop} {row : String}
    (hO : ∀ op v (reply : op.Reply) s', O op → Own home i row v →
      (⟨i, op, reply, v.clock, v.store, s'⟩ : Event ι).AtHome home)
    {p : Eff α} (hp : p.Only O) (hw : Own home i row w) :
    Stays home i (fun _ w' => Own home i row w') p w :=
  stays_only (stable_own home i row) (fun _ _ _ _ hgrow h => h.grows hgrow) hO hp hw

/-- A delivery that was claimed is one of the own cluster. -/
theorem stays_claim (request : ClaimRequest) :
    Stays home i (fun reply w' => ∀ delivery, reply = .ok (some delivery) →
      Own home i delivery.id w') (Eff.store (.outboxClaim request)) w := by
  refine keeps_perform (stable_const i True)
    (fun v reply s' hinv _ hguard hanswer => ⟨hinv.extend trivial, ?_⟩) trivial
  rintro delivery rfl
  obtain ⟨d, hd, rfl, rfl⟩ := claim_answered hanswer
  simp only [claimsAtHome, hd, Option.all_some, decide_eq_true_eq] at hguard
  exact hguard.grows (Store.grows_claim v.store request)

theorem atHome_of_outside {op : Op} {reply : op.Reply} {clock : Time} {s s' : Store}
    (hop : op = .now ∨ op = .ctxErr) :
    (⟨i, op, reply, clock, s, s'⟩ : Event ι).AtHome home := by
  rcases hop with rfl | rfl <;> trivial

theorem stays_dispatchOne (d : Dispatcher) (hd : d.clusterID = home i) :
    Stays home i (fun _ _ => True) d.dispatchOne w := by
  have hidle : ∀ {β : Type} (p : Eff β) (v : World ι), p.Only (fun op => op = .now ∨ op = .ctxErr) →
      Stays home i (fun _ _ => True) p v := fun p v hp =>
    stays_only (stable_const i True) (fun _ _ _ _ _ h => h) (fun _ _ _ _ h _ => atHome_of_outside h)
      hp trivial
  have hheld : ∀ (delivery : Delivery) {β : Type} (p : Eff β) (v : World ι),
      p.Only (fun op => op = .now ∨ op = .ctxErr) → Own home i delivery.id v →
        Stays home i (fun _ => Own home i delivery.id) p v := fun delivery β p v hp hv =>
    stays_own (fun _ _ _ _ h _ => atHome_of_outside h) hp hv
  refine keeps_dispatchOne d (fun _ => True) (fun _ _ => True)
    (fun _ delivery => Own home i delivery.id) (fun delivery _ => Own home i delivery.id)
    (fun v _ => hidle _ v (Eff.only_ctxErr (Or.inr rfl)))
    (fun v _ => hidle _ v (Eff.only_now (Or.inl rfl))) (fun now v _ => stays_claim _)
    (fun delivery now v hv => ?_)
    (fun delivery _ v hv => hheld delivery _ v (Eff.only_ctxErr (Or.inr rfl)) hv)
    (fun delivery _ v hv => hheld delivery _ v (Eff.only_now (Or.inl rfl)) hv)
    (fun delivery now v hv => ?_) (fun delivery err now v hv => ?_) trivial
  · refine stays_own (O := fun op => ∃ destination envelope, op = .deliver destination envelope ∧
      envelope.id = delivery.id ∧ envelope.source = clusterSource (home i)) ?_
      (d.attempt_only fun event hevent => ?_) hv
    · rintro op v reply s' ⟨destination, envelope, rfl, hid, hsource⟩ hown
      refine ⟨?_, hsource⟩
      show v.store.ProducedBy envelope.id (home i)
      rw [hid]
      exact hown
    · obtain ⟨hid, hsource⟩ := newEnvelope_ok hevent
      exact ⟨_, _, rfl, hid, hd ▸ hsource⟩
  · exact keeps_perform (stable_own home i delivery.id)
      (fun v reply s' hinv hv _ _ => ⟨hinv.extend hv, trivial⟩) hv
  · exact keeps_perform (stable_own home i delivery.id)
      (fun v reply s' hinv hv _ _ => ⟨hinv.extend hv, trivial⟩) hv

theorem stays_reconcile {H : Hasher} (r : Reconciler) (key : ResourceKey) :
    Stays home i (fun _ _ => True) (r.reconcile H key) w := by
  refine stays_only (stable_const i True) (fun _ _ _ _ _ h => h) (fun op v reply s' hop _ => ?_)
    (Reconciler.reconcile_only key) trivial
  cases op with
  | store op => cases op <;> first | exact hop.elim | trivial
  | deliver destination envelope => exact hop.elim
  | _ => trivial

end Calls

/-- Controllers of any clusters share the database. In every run in which a claim finds a row of
the claiming controller's cluster first, no controller touches a row of another cluster. -/
theorem clusters_isolated (H : Hasher) (home : ι → String) (t : Time)
    (c : Framework.Config ι Op Op.Reply Unit (World ι))
    (hrun : Runs H (fun i task => task.clusterID = home i)
      (fun i op w => claimsAtHome home i op w = true) (initial ι t) c) :
    Isolated home c.state := by
  refine runs_keep ?_ (fun _ _ _ h => h) (fun _ _ h _ => h) ?_ hrun
  · intro t e he
    cases he
  · intro i task w htask _ _
    cases task with
    | reconcile r key => exact keeps_bind (stays_reconcile r key) fun _ _ _ => keeps_ret trivial
    | dispatch d => exact keeps_bind (stays_dispatchOne d htask) fun _ _ _ => keeps_ret trivial

/-- A delivery of a row of cluster `c` in the name of cluster `d`. -/
def Event.deliversForeign (e : Event ι) : Bool :=
  match e.op with
  | .deliver _ envelope => decide (e.before.ProducedBy envelope.id "c") &&
      decide (envelope.source = clusterSource "d")
  | _ => false

/-- A permanent failure of a row of cluster `c`. -/
def Event.failsRow (e : Event ι) : Bool :=
  match e.op with
  | .store (.outboxReschedule request) => decide (e.before.ProducedBy request.id "c") &&
      decide (request.failure = .permanent)
  | _ => false

theorem Event.deliversForeign_op {e : Event ι} (h : e.deliversForeign = true) :
    ∃ destination envelope, e.op = .deliver destination envelope ∧
      e.before.ProducedBy envelope.id "c" ∧ envelope.source = clusterSource "d" := by
  unfold deliversForeign at h
  split at h
  · rename_i destination envelope hop
    simp only [Bool.and_eq_true, decide_eq_true_eq] at h
    exact ⟨destination, envelope, hop, h.1, h.2⟩
  · cases h

theorem Event.failsRow_op {e : Event ι} (h : e.failsRow = true) :
    ∃ request, e.op = .store (.outboxReschedule request) ∧
      e.before.ProducedBy request.id "c" ∧ request.failure = .permanent := by
  unfold failsRow at h
  split at h
  · rename_i request hop
    simp only [Bool.and_eq_true, decide_eq_true_eq] at h
    exact ⟨request, hop, h.1, h.2⟩
  · cases h

namespace Scenario

open Controller.Scenario

theorem d_visible : isBlank "d" = false := by decide

theorem pager_visible : ∀ n ∈ ["pager"], isBlank n = false := by decide

theorem pager_nodup : ["pager"].Nodup := List.nodup_singleton _

/-- The first execution works for cluster `d`, the others for `c`. -/
def twoClusters (i : Nat) : String := if i = 1 then "d" else "c"

/-- The other cluster has a destination of the same name. -/
def namesake : Dispatcher := dispatcher "d" d_visible ["hook"] hook_visible hook_nodup

/-- The other cluster has other destinations. -/
def stranger : Dispatcher := dispatcher "d" d_visible ["pager"] pager_visible pager_nodup

/-- A failure in cluster `c`, and a dispatch by the other cluster. -/
def foreignDispatch (d : Dispatcher) : List Turn :=
  [.start 0 (.reconcile notifying (jobCall 0 1).key), dispatches 0 20 none,
    .start 1 (.dispatch d), dispatches 1 20 none]

/-- The cluster delivers its notification before the other one looks for work. -/
def ownDispatch : List Turn :=
  [.start 0 (.reconcile notifying (jobCall 0 1).key), dispatches 0 20 none,
    .start 2 (.dispatch hooked), dispatches 2 20 none,
    .start 1 (.dispatch stranger), dispatches 1 20 none]

end Scenario

open Scenario Controller.Scenario

/-- A delivery by the cluster it comes from. -/
theorem ownDispatch_isolated :
    ∃ c, Runs checksumHasher (fun i task => task.clusterID = twoClusters i)
        (fun i op w => claimsAtHome twoClusters i op w = true) (initial Nat noon) c ∧
      (c.state.store.outbox.rows.map fun d => d.status) = [.delivered] ∧
      Isolated twoClusters c.state := by
  have hfacts : (play checksumHasher (fun i task => task.clusterID = twoClusters i)
      (claimsAtHome twoClusters) ownDispatch (initial Nat noon)).any (fun c =>
        decide ((c.state.store.outbox.rows.map fun d => d.status) = [.delivered])) = true := by
    decide +kernel
  obtain ⟨c, hplay, hrows⟩ := (Option.any_eq_true _ _).mp hfacts
  have hrun := runs_of_play hplay
  exact ⟨c, hrun, of_decide_eq_true hrows,
    clusters_isolated checksumHasher twoClusters noon c hrun⟩

/-- A notification of cluster `c` is delivered in the name of cluster `d`, and one is failed for
good because cluster `d` does not know its destination. -/
theorem foreign_dispatch_not_isolated :
    (∃ c, Runs checksumHasher (fun i task => task.clusterID = twoClusters i) (fun _ _ _ => True)
        (initial Nat noon) c ∧ ¬Isolated twoClusters c.state ∧
      ∃ e ∈ c.state.trace, twoClusters e.worker = "d" ∧
        ∃ destination envelope, e.op = .deliver destination envelope ∧
          e.before.ProducedBy envelope.id "c" ∧ envelope.source = clusterSource "d") ∧
    ∃ c, Runs checksumHasher (fun i task => task.clusterID = twoClusters i) (fun _ _ _ => True)
        (initial Nat noon) c ∧ ¬Isolated twoClusters c.state ∧
      ∃ e ∈ c.state.trace, twoClusters e.worker = "d" ∧
        ∃ request, e.op = .store (.outboxReschedule request) ∧
          e.before.ProducedBy request.id "c" ∧ request.failure = .permanent := by
  have hplayed : ∀ (d : Dispatcher) (bad : Event Nat → Bool),
      (play checksumHasher (fun i task => task.clusterID = twoClusters i) (fun _ _ _ => true)
        (foreignDispatch d) (initial Nat noon)).any (fun c => c.state.trace.any fun e =>
          decide (twoClusters e.worker = "d") && bad e) = true →
      ∃ c, Runs checksumHasher (fun i task => task.clusterID = twoClusters i) (fun _ _ _ => True)
        (initial Nat noon) c ∧ ∃ e ∈ c.state.trace, twoClusters e.worker = "d" ∧ bad e = true := by
    intro d bad hfacts
    obtain ⟨c, hplay, hany⟩ := (Option.any_eq_true _ _).mp hfacts
    obtain ⟨e, he, hbad⟩ := List.any_eq_true.mp hany
    simp only [Bool.and_eq_true, decide_eq_true_eq] at hbad
    exact ⟨c, steps_restrict_mono (fun _ _ _ _ => trivial) (runs_of_play hplay), e, he, hbad⟩
  constructor
  · obtain ⟨c, hrun, e, he, hhome, hbad⟩ :=
      hplayed namesake Event.deliversForeign (by decide +kernel)
    obtain ⟨destination, envelope, hop, hrow, hsource⟩ := Event.deliversForeign_op hbad
    refine ⟨c, hrun, fun hisolated => ?_, e, he, hhome, destination, envelope, hop, hrow, hsource⟩
    have hown := hisolated e he
    rw [Event.AtHome, hop, hhome] at hown
    exact absurd (hrow.unique hown.1) (by decide)
  · obtain ⟨c, hrun, e, he, hhome, hbad⟩ := hplayed stranger Event.failsRow (by decide +kernel)
    obtain ⟨request, hop, hrow, hfailure⟩ := Event.failsRow_op hbad
    refine ⟨c, hrun, fun hisolated => ?_, e, he, hhome, request, hop, hrow, hfailure⟩
    have hown := hisolated e he
    rw [Event.AtHome, hop, hhome] at hown
    exact absurd (hrow.unique hown) (by decide)

end RuleRaven
