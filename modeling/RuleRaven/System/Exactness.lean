import RuleRaven.Controller.Soundness
import RuleRaven.System.Chronicle
import RuleRaven.System.Workers

namespace RuleRaven

open Framework Controller

/-- Where only one element of a list contributes to a count, the count is its own. -/
theorem countP_flatMap {α β κ : Type} {l : List α} {f : α → κ} {g : α → List β} {p : β → Bool}
    {a : α} (hl : (l.map f).Nodup) (ha : a ∈ l)
    (hother : ∀ b ∈ l, f b ≠ f a → (g b).countP p = 0) :
    (l.flatMap g).countP p = (g a).countP p := by
  obtain ⟨front, rest, rfl⟩ := List.append_of_mem ha
  have hnone : ∀ part : List α, (∀ b ∈ part, (g b).countP p = 0) →
      (part.flatMap g).countP p = 0 := by
    intro part hpart
    rw [List.countP_eq_zero]
    intro x hx
    obtain ⟨b, hb, hx⟩ := List.mem_flatMap.mp hx
    exact List.countP_eq_zero.mp (hpart b hb) x hx
  rw [List.map_append, List.map_cons, List.nodup_append, List.nodup_cons] at hl
  obtain ⟨-, ⟨hrest, -⟩, hdisjoint⟩ := hl
  rw [List.flatMap_append, List.flatMap_cons, List.countP_append, List.countP_append,
    hnone front fun b hb => ?_, hnone rest fun b hb => ?_, Nat.zero_add, Nat.add_zero]
  · refine hother b (by simp [hb]) fun heq => hrest ?_
    rw [← heq]
    exact List.mem_map_of_mem hb
  · refine hother b (by simp [hb]) ?_
    exact hdisjoint (f b) (List.mem_map_of_mem hb) (f a) List.mem_cons_self

namespace Controller

theorem newReconciler_destinations {config : Config} {r : Reconciler}
    (h : newReconciler config = .ok r) (destination : String) :
    destination ∈ r.destinations ↔ destination ∈ config.destinations := by
  rw [(newReconciler_eq_ok h).2.2.2.2]
  exact (sortSlice_perm _ _).mem_iff

theorem checkDestinations_of_increasing {ds : List String} (hv : ∀ d ∈ ds, isBlank d = false)
    (hs : ds.Pairwise (· < ·)) : checkDestinations ds = true := by
  induction ds using checkDestinations.induct with
  | case1 => rfl
  | case2 d => simpa [checkDestinations] using hv
  | case3 d e ds ih =>
    have hne : d ≠ e := ne_of_lt ((List.pairwise_cons.mp hs).1 e List.mem_cons_self)
    simp only [checkDestinations, Bool.and_eq_true, Bool.not_eq_true', bne_iff_ne]
    exact ⟨⟨hv d List.mem_cons_self, hne⟩,
      ih (fun x hx => hv x (List.mem_cons_of_mem _ hx)) (List.pairwise_cons.mp hs).2⟩

/-- Every reconciler is accepted by `NewReconciler`. -/
theorem newReconciler_complete (r : Reconciler) :
    ∃ config, newReconciler config = .ok r ∧ config.destinations = r.destinations := by
  have hsort : sortSlice (fun a b => decide (a < b)) r.destinations = r.destinations := by
    refine List.Pairwise.insertionSort_eq (r.destinations_increasing.imp fun {a b} hlt => ?_)
    rw [decide_eq_false_iff_not, not_lt]
    exact hlt.le
  have hcheck := checkDestinations_of_increasing r.destinations_visible r.destinations_increasing
  have hperiod : ¬ ((1 : Duration) ≤ 0 ∨ r.eventQuietPeriod ≤ 0) := by
    rw [not_or]
    exact ⟨by decide, Int64.not_le.mpr r.eventQuietPeriod_pos⟩
  refine ⟨{ r with primary := some r.primary, reconcileTimeout := 1 }, ?_, rfl⟩
  simp only [newReconciler, r.clusterID_visible, hperiod, hsort, hcheck]
  rfl

namespace Reconciler

variable {H : Hasher} {r : Reconciler} {key : Kube.ResourceKey} {request : CommitRequest}

/-- A commit that is told about. -/
def Told (request : CommitRequest) : Prop :=
  request.incident.status = .resolved ∨ request.evaluation.decision.action = .notify ∨
    request.evaluation.decision.action = .page

instance (request : CommitRequest) : Decidable (Told request) := inferInstanceAs (Decidable (_ ∨ _))

/-- The rows of a commit: one per destination if it is told about, and none otherwise. -/
theorem Issues.rows (h : Issues H r key (.commit request)) :
    ∃ eventType, request.rows.map Delivery.slot = if Told request then r.destinations.map fun d =>
        (deliveryID H request.evaluation.id d eventType, request.evaluation.id, d, eventType)
      else [] := by
  cases h with
  | @commit incident created decided p hp =>
    refine ⟨eventTypeFor created p.result, ?_⟩
    have hdeliveries : (r.commitRequest H incident created p.snapshot p.result decided
        p.now).rows = (r.deliveries H (transition incident p.snapshot p.result p.now) p.snapshot
          (evaluationID H (r.identity incident.id p.snapshot p.result))
          (eventTypeFor created p.result) decided.decision (statusFor p.result) p.now).map
            fun d => d.toDocument p.now := rfl
    rw [hdeliveries, deliveries]
    have htold : Told (r.commitRequest H incident created p.snapshot p.result decided p.now) ↔
        ¬ (statusFor p.result ≠ .resolved ∧ decided.decision.action ≠ .notify ∧
          decided.decision.action ≠ .page) := by
      rw [Told, not_and_or, not_and_or, not_not, not_not, not_not]
      rfl
    by_cases hsilent : statusFor p.result ≠ .resolved ∧ decided.decision.action ≠ .notify ∧
        decided.decision.action ≠ .page
    · rw [if_pos hsilent, if_neg (htold.not.mpr (not_not.mpr hsilent))]
      rfl
    · rw [if_neg hsilent, if_pos (htold.mpr hsilent), List.map_map, List.map_map]
      rfl

theorem Issues.evaluationID (h : Issues H r key (.commit request)) :
    Plain request.evaluation.id := by
  cases h
  exact H.plain _

end Reconciler

end Controller

section Runs

open Controller.Reconciler

variable {ι : Type} {H : Hasher} {tasks : ι → Task → Prop} {w : World ι}

theorem Chronicled.slot (hw : Chronicled H tasks w) {d : Delivery}
    (hd : d ∈ w.store.outbox.rows) :
    ∃ request ∈ commits w.trace, request.evaluation.id = d.evaluationID ∧
      d.id = deliveryID H d.evaluationID d.destinationID d.eventType := by
  obtain ⟨request, hrequest, brought, hbrought, hslot⟩ := hw.row hd
  obtain ⟨-, r, key, -, hissued⟩ := hw.issued request hrequest
  obtain ⟨eventType, hrows⟩ := hissued.rows
  have hmem := List.mem_map_of_mem (f := Delivery.slot) hbrought
  rw [hrows, hslot] at hmem
  split_ifs at hmem
  · obtain ⟨destination, -, heq⟩ := List.mem_map.mp hmem
    simp only [Delivery.slot, Delivery.eventKey, Prod.mk.injEq] at heq
    obtain ⟨hid, hevaluation, hdestination, htype⟩ := heq
    refine ⟨request, hrequest, hevaluation, ?_⟩
    rw [← hid, hevaluation, hdestination, htype]
  · cases hmem

/-- The rows of an evaluation under a destination. -/
theorem Chronicled.count (hw : Chronicled H tasks w) {request : CommitRequest}
    (hrequest : request ∈ commits w.trace) {r : Reconciler} {key : Kube.ResourceKey}
    (hissued : Issues H r key (.commit request)) (destination : String) :
    w.store.outbox.rows.countP (fun d =>
        d.evaluationID == request.evaluation.id && d.destinationID == destination) =
      if destination ∈ r.destinations ∧ Told request then 1 else 0 := by
  let p : String × String × String × EventType → Bool := fun slot =>
    slot.2.1 == request.evaluation.id && slot.2.2.1 == destination
  have hids : ((commits w.trace).map fun request => request.evaluation.id).Nodup := by
    have hunique := w.store.evaluations.id_unique
    rw [hw.evaluations, List.map_map] at hunique
    exact hunique
  have hother : ∀ x ∈ commits w.trace, x.evaluation.id ≠ request.evaluation.id →
      (x.rows.map Delivery.slot).countP p = 0 := by
    intro x hx hne
    obtain ⟨-, r', key', -, hissued'⟩ := hw.issued x hx
    obtain ⟨eventType, hrows⟩ := hissued'.rows
    rw [hrows, List.countP_eq_zero]
    split_ifs
    · intro slot hslot
      obtain ⟨d, -, rfl⟩ := List.mem_map.mp hslot
      simp [p, hne]
    · exact fun _ h => by cases h
  have hcount : w.store.outbox.rows.countP (p ∘ Delivery.slot) =
      (request.rows.map Delivery.slot).countP p := by
    rw [← List.countP_map, hw.outbox]
    exact countP_flatMap hids hrequest hother
  obtain ⟨eventType, hrows⟩ := hissued.rows
  have hnodup := r.destinations_increasing.imp fun {a b} (h : a < b) => ne_of_lt h
  show w.store.outbox.rows.countP (p ∘ Delivery.slot) = _
  rw [hcount, hrows]
  by_cases htold : Told request
  · rw [if_pos htold, List.countP_map]
    have hsame : (p ∘ fun d => (deliveryID H request.evaluation.id d eventType,
        request.evaluation.id, d, eventType)) = fun d => d == destination := by
      funext d
      simp [p]
    rw [hsame]
    show r.destinations.count destination = _
    simp only [htold, and_true]
    exact List.Nodup.count hnodup
  · simp [htold]

/-- Whatever the workers do, whichever calls fail and whoever crashes: every evaluation has one
row per destination if its commit resolved the incident or decided to notify or to page, and no
row otherwise; and no two triples of an evaluation, a destination and an event type share the ID
of a row. -/
theorem outbox_exact (H : Hasher) (hH : H.CollisionFree) (destinations : List String)
    (tasks : ι → Task → Prop) (hfixed : ∀ i r key, tasks i (.reconcile r key) →
      ∃ config, newReconciler config = .ok r ∧ config.destinations = destinations)
    (t : Time) (c : Framework.Config ι Op Op.Reply Unit (World ι))
    (hrun : Runs H tasks (fun _ _ _ => True) (initial ι t) c) :
    c.state.store.evaluations.rows =
        (commits c.state.trace).map (fun request => request.evaluation.toDocument) ∧
      (∀ request ∈ commits c.state.trace, ∀ destination,
        c.state.store.outbox.rows.countP (fun d =>
            d.evaluationID == request.evaluation.id && d.destinationID == destination) =
          if destination ∈ destinations ∧ (request.incident.status = .resolved ∨
            request.evaluation.decision.action = .notify ∨
            request.evaluation.decision.action = .page) then 1 else 0) ∧
      (c.state.store.outbox.rows.map fun d => d.id).Nodup ∧
      (∀ d ∈ c.state.store.outbox.rows,
        (∃ e ∈ c.state.store.evaluations.rows, d.evaluationID = e.id) ∧
          d.id = deliveryID H d.evaluationID d.destinationID d.eventType) ∧
      ∀ e ∈ c.state.store.evaluations.rows, ∀ e' ∈ c.state.store.evaluations.rows,
        ∀ destination destination' eventType eventType',
          deliveryID H e.id destination eventType = deliveryID H e'.id destination' eventType' →
            e = e' ∧ destination = destination' ∧ eventType = eventType' := by
  have hw := runs_chronicled hrun
  have hrow : ∀ request ∈ commits c.state.trace,
      request.evaluation.toDocument ∈ c.state.store.evaluations.rows := by
    intro request hrequest
    rw [hw.evaluations]
    exact List.mem_map_of_mem hrequest
  have hplain : ∀ e ∈ c.state.store.evaluations.rows, Plain e.id := by
    intro e he
    rw [hw.evaluations] at he
    obtain ⟨request, hrequest, rfl⟩ := List.mem_map.mp he
    obtain ⟨-, r, key, -, hissued⟩ := hw.issued request hrequest
    exact hissued.evaluationID
  refine ⟨hw.evaluations, fun request hrequest destination => ?_, c.state.store.outbox.id_unique,
    fun d hd => ?_, fun e he e' he' D D' T T' heq => ?_⟩
  · obtain ⟨i, r, key, htask, hissued⟩ := hw.issued request hrequest
    obtain ⟨config, hconfig, rfl⟩ := hfixed i r key htask
    rw [hw.count hrequest hissued]
    simp only [newReconciler_destinations hconfig, Told]
  · obtain ⟨request, hrequest, hevaluation, hid⟩ := hw.slot hd
    exact ⟨⟨_, hrow request hrequest, hevaluation.symm⟩, hid⟩
  · obtain ⟨hid, hdestination, htype⟩ := deliveryID_inj hH (hplain e he) (hplain e' he') heq
    exact ⟨Table.eq_of_id he he' hid, hdestination, htype⟩

end Runs

namespace Scenario

/-- Reconcilers that notify the hook, and any dispatcher. -/
def hooking (_ : Nat) : Task → Bool
  | .reconcile r _ => r.destinations == ["hook"]
  | .dispatch _ => true

end Scenario

open Scenario Controller.Scenario Controller.Reconciler

/-- A failure is told to the hook, and to nobody else. -/
theorem failure_told_exactly :
    ∃ (c : Crew) (request : CommitRequest),
      Runs keepingHasher (fun i task => hooking i task = true) (fun _ _ _ => True)
        (initial Nat noon) c ∧ request ∈ commits c.state.trace ∧
      request.evaluation.decision.action = .page ∧
      (c.state.store.outbox.rows.countP fun d =>
        d.evaluationID == request.evaluation.id && d.destinationID == "hook") = 1 ∧
      (c.state.store.outbox.rows.countP fun d =>
        d.evaluationID == request.evaluation.id && d.destinationID == "pager") = 0 := by
  have hfacts : (play keepingHasher (fun i task => hooking i task = true) (fun _ _ _ => true)
      (reconciles 0 20 (jobCall 0 1)) (initial Nat noon)).any (fun c =>
        (commits c.state.trace).any fun request =>
          decide (request.evaluation.decision.action = .page)) = true := by
    decide +kernel
  obtain ⟨c, hplay, hcommits⟩ := (Option.any_eq_true _ _).mp hfacts
  obtain ⟨request, hrequest, haction⟩ := List.any_eq_true.mp hcommits
  have hrun := steps_restrict_mono (fun _ _ _ _ => trivial) (runs_of_play hplay)
  have hfixed : ∀ i r key, hooking i (.reconcile r key) = true →
      ∃ config, newReconciler config = .ok r ∧ config.destinations = ["hook"] := by
    intro i r key h
    obtain ⟨config, hconfig, hdestinations⟩ := newReconciler_complete r
    exact ⟨config, hconfig, hdestinations.trans (beq_iff_eq.mp h)⟩
  have hexact := outbox_exact keepingHasher keepingHasher_collisionFree ["hook"] _ hfixed noon c
    hrun
  have hpage := of_decide_eq_true haction
  refine ⟨c, request, hrun, hrequest, hpage, ?_, ?_⟩
  · rw [hexact.2.1 request hrequest "hook"]
    simp [hpage]
  · rw [hexact.2.1 request hrequest "pager"]
    simp

end RuleRaven
