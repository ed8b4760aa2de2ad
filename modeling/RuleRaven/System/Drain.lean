import RuleRaven.Notify.Phases
import RuleRaven.System.Dispatching

namespace RuleRaven.Notify.Dispatcher

open Framework

variable (d : Dispatcher) (stored : Time → Time) (now : Time)

section Tally

/-- The times that the dispatcher writes are kept as later than now. -/
structure Advances : Prop where
  lease : stored now < stored (now.add d.leaseDuration)
  delay : ∀ delay, d.initialBackoff ≤ delay → delay ≤ d.maxBackoff →
    stored now < stored (now.add delay)

/-- The rows that are eligible at the start. -/
def due (s : Store) : List String :=
  (s.outbox.rows.filter (Delivery.eligibleAt stored now)).map fun b => b.id

/-- Nothing is eligible. -/
def Dry (f : Floor) : Prop := ∀ b ∈ f.store.outbox.rows, b.eligibleAt stored now = false

/-- What the claims have done to the outbox, where `held` are the rows in the hands of workers. -/
structure Tally (s : Store) (f : Floor) (held : List String) : Prop where
  ids : f.store.outbox.rows.map (fun b => b.id) = s.outbox.rows.map fun b => b.id
  kept : ∀ b ∈ s.outbox.rows, b.id ∉ f.claimed → b ∈ f.store.outbox.rows
  once : f.claimed.Nodup
  wasDue : ∀ id ∈ f.claimed, id ∈ due stored now s
  spent : ∀ b ∈ f.store.outbox.rows, b.id ∈ f.claimed → b.eligibleAt stored now = false
  holds : ∀ id ∈ held, id ∈ f.claimed ∧
    f.store.outbox.rows.any (Delivery.heldBy id d.workerID) = true
  apart : held.Nodup

variable {d stored now}

theorem advances_exact (d : Dispatcher) (now : Time) : d.Advances id now where
  lease := lt_add d.positive.2.1
  delay := fun _ hlow _ => lt_add (Int64.lt_of_lt_of_le d.initialBackoff_pos hlow)

/-- What a delivery is finalized to is not eligible. -/
theorem closed_not_eligible (hadvances : d.Advances stored now) (delivery : Delivery)
    (outcome : Option DeliveryError) (row : Delivery) :
    ((d.closeChange stored now delivery outcome).apply row).eligibleAt stored now = false := by
  cases outcome with
  | none => rfl
  | some err =>
    show Delivery.eligibleAt stored now ((rescheduleChangeAt stored _).apply row) = false
    unfold rescheduleChangeAt Delivery.eligibleAt
    cases hfailure : (d.rescheduleRequest delivery err now).failure with
    | permanent => rfl
    | retryable =>
      have hretry : (d.classify delivery.attempts err).1 = .retryable := hfailure
      obtain ⟨hlow, hhigh⟩ := d.classify_delay hretry
      have hlater := hadvances.delay _ (Int64.le_trans (d.backoff_bounds _).1 hlow) hhigh
      exact decide_eq_false (not_le.mpr hlater)

theorem claimed_not_eligible (hadvances : d.Advances stored now) (row : Delivery) :
    ((claimChangeAt stored ⟨d.workerID, now, d.leaseDuration⟩).apply row).eligibleAt stored now =
      false :=
  decide_eq_false (not_le.mpr hadvances.lease)

variable {s : Store} {f : Floor} {held : List String}

theorem Tally.perm (h : d.Tally stored now s f held) {held' : List String}
    (hperm : held.Perm held') :
    d.Tally stored now s f held' :=
  { h with
    holds := fun id hid => h.holds id (hperm.mem_iff.mpr hid)
    apart := hperm.nodup_iff.mp h.apart }

/-- Another row's holder still holds it after a change. -/
theorem any_held_modify {id other : String}
    {change : Table.Change (fun d : Delivery => d.id) Delivery.eventKey} (hne : id ≠ other)
    (h : f.store.outbox.rows.any (Delivery.heldBy id d.workerID) = true) :
    (f.store.outbox.modify other change).rows.any (Delivery.heldBy id d.workerID) = true := by
  obtain ⟨b, hb, hheld⟩ := List.any_eq_true.mp h
  have hid : b.id = id := by
    simp only [Delivery.heldBy, Bool.and_eq_true, beq_iff_eq] at hheld
    exact hheld.1.1
  exact List.any_eq_true.mpr ⟨b, Table.mem_modify.mpr (Or.inl ⟨hb, hid ▸ hne⟩), hheld⟩

/-- The row that is first in line was there at the start, and nobody has claimed it. -/
theorem Tally.first (h : d.Tally stored now s f held) {row : Delivery}
    (hrow : f.store.claimableAt stored now = some row) :
    row ∈ f.store.outbox.rows ∧ row.id ∉ f.claimed ∧ row.id ∈ due stored now s := by
  obtain ⟨hmem, heligible⟩ := Store.claimableAt_eq_some hrow
  have hfresh : row.id ∉ f.claimed := fun hclaimed => by
    rw [h.spent row hmem hclaimed] at heligible
    cases heligible
  have hid : row.id ∈ s.outbox.rows.map fun b => b.id := h.ids ▸ List.mem_map_of_mem hmem
  obtain ⟨b, hb, heq⟩ := List.mem_map.mp hid
  have hsame : b = row := Table.eq_of_id (h.kept b hb (heq ▸ hfresh)) hmem heq
  exact ⟨hmem, hfresh, List.mem_map_of_mem (List.mem_filter.mpr ⟨hsame ▸ hb, heligible⟩)⟩

/-- A change of one row, to something that is not eligible. -/
theorem Tally.modify (h : d.Tally stored now s f held) {id : String} {claimed : List String}
    {change : Table.Change (fun d : Delivery => d.id) Delivery.eventKey}
    (hchange : ∀ b, (change.apply b).eligibleAt stored now = false)
    (hclaimed : ∀ other, other ∈ claimed ↔ other ∈ f.claimed ∨ other = id) :
    (f.store.outbox.modify id change).rows.map (fun b => b.id) =
        s.outbox.rows.map (fun b => b.id) ∧
      (∀ b ∈ s.outbox.rows, b.id ∉ claimed → b ∈ (f.store.outbox.modify id change).rows) ∧
      ∀ b ∈ (f.store.outbox.modify id change).rows, b.id ∈ claimed →
        b.eligibleAt stored now = false := by
  refine ⟨?_, fun b hb hnot => ?_, fun b hb hin => ?_⟩
  · rw [← h.ids]
    exact Table.map_change _ id change.apply _ change.id_apply
  · rw [hclaimed, not_or] at hnot
    exact Table.mem_modify.mpr (Or.inl ⟨h.kept b hb hnot.1, hnot.2⟩)
  · rcases Table.mem_modify.mp hb with ⟨hb, hne⟩ | ⟨b, -, -, rfl⟩
    · exact h.spent b hb (((hclaimed _).mp hin).resolve_right hne)
    · exact hchange b

theorem Tally.take (h : d.Tally stored now s f held) (hadvances : d.Advances stored now)
    {row : Delivery} (hrow : f.store.claimableAt stored now = some row) :
    d.Tally stored now s (f.alter row.id
      (claimChangeAt stored ⟨d.workerID, now, d.leaseDuration⟩) (f.claimed ++ [row.id]))
      (row.id :: held) := by
  obtain ⟨hmem, hfresh, hdue⟩ := h.first hrow
  have hclaimed : ∀ other, other ∈ f.claimed ++ [row.id] ↔ other ∈ f.claimed ∨ other = row.id := by
    simp
  obtain ⟨hids, hkept, hspent⟩ := h.modify (claimed_not_eligible hadvances) hclaimed
  refine ⟨hids, hkept, ?_, ?_, hspent, ?_, ?_⟩
  · exact List.nodup_append.mpr ⟨h.once, List.nodup_singleton _, by
      rintro a ha b hb rfl
      exact hfresh (List.mem_singleton.mp hb ▸ ha)⟩
  · intro id hid
    rcases (hclaimed id).mp hid with hid | rfl
    · exact h.wasDue id hid
    · exact hdue
  · intro id hid
    rcases List.mem_cons.mp hid with rfl | hid
    · refine ⟨(hclaimed _).mpr (Or.inr rfl), List.any_eq_true.mpr ⟨_,
        Table.mem_modify.mpr (Or.inr ⟨row, hmem, rfl, rfl⟩), ?_⟩⟩
      simp [Delivery.heldBy, claimChangeAt]
    · obtain ⟨hold, hany⟩ := h.holds id hid
      exact ⟨(hclaimed _).mpr (Or.inl hold), any_held_modify (fun heq => hfresh (heq ▸ hold)) hany⟩
  · exact List.nodup_cons.mpr ⟨fun hin => hfresh (h.holds _ hin).1, h.apart⟩

theorem Tally.close {delivery : Delivery} (h : d.Tally stored now s f (delivery.id :: held))
    (hadvances : d.Advances stored now) (outcome : Option DeliveryError) :
    d.Tally stored now s
      (f.alter delivery.id (d.closeChange stored now delivery outcome) f.claimed) held := by
  have hclaimed : ∀ other, other ∈ f.claimed ↔ other ∈ f.claimed ∨ other = delivery.id := by
    intro other
    refine ⟨Or.inl, fun hother => hother.elim (fun hin => hin) fun heq => ?_⟩
    exact heq ▸ (h.holds _ List.mem_cons_self).1
  obtain ⟨hids, hkept, hspent⟩ := h.modify (closed_not_eligible hadvances delivery outcome) hclaimed
  obtain ⟨hout, hapart⟩ := List.nodup_cons.mp h.apart
  refine ⟨hids, hkept, h.once, h.wasDue, hspent, fun id hid => ?_, hapart⟩
  obtain ⟨hold, hany⟩ := h.holds id (List.mem_cons_of_mem _ hid)
  exact ⟨hold, any_held_modify (fun heq => hout (heq ▸ hid)) hany⟩

theorem due_nodup (s : Store) : (due stored now s).Nodup :=
  s.outbox.id_unique.sublist (List.filter_sublist.map _)

/-- No more rows are claimed than were due. -/
theorem Tally.length_le (h : d.Tally stored now s f held) :
    f.claimed.length ≤ (due stored now s).length :=
  (List.subperm_of_subset h.once h.wasDue).length_le

end Tally

section Turns

variable {d stored now} {s : Store} {f f' : Floor} {φ φ' : Phase} {held : List String}

theorem Turns.tally (h : d.Turns stored now f φ f' φ') (hadvances : d.Advances stored now)
    (ht : d.Tally stored now s f (φ.held ++ held)) : d.Tally stored now s f' (φ'.held ++ held) := by
  cases h with
  | take hrow hrequest hattempts =>
    subst hrequest
    have htaken := Tally.take ht hadvances hrow
    cases hattempts <;> exact htaken
  | close delivery outcome => exact ht.close hadvances outcome
  | _ => exact ht

/-- Once nothing is eligible, nothing becomes so. -/
theorem Turns.dry (h : d.Turns stored now f φ f' φ') (hadvances : d.Advances stored now)
    (hdry : Dry stored now f) : Dry stored now f' := by
  cases h with
  | take hrow =>
    obtain ⟨hmem, heligible⟩ := Store.claimableAt_eq_some hrow
    rw [hdry _ hmem] at heligible
    cases heligible
  | close delivery outcome =>
    intro b hb
    rcases Table.mem_modify.mp hb with ⟨hb, -⟩ | ⟨b, -, -, rfl⟩
    · exact hdry b hb
    · exact closed_not_eligible hadvances delivery outcome b
  | _ => exact hdry

/-- A worker that leaves has found nothing. -/
theorem Turns.missed (h : d.Turns stored now f φ f' φ') (hleaves : φ' = .missed ∨ φ' = .done) :
    φ = .missed ∨ Dry stored now f' := by
  cases h with
  | miss hnone => exact Or.inr (Store.claimableAt_eq_none hnone)
  | leave => exact Or.inl rfl
  | take _ _ hattempts =>
    rcases hleaves with rfl | rfl <;> cases hattempts
  | _ => rcases hleaves with h | h <;> cases h

/-- Every turn costs something: a row that was due, or a part of what its worker has left. -/
theorem Turns.costs (h : d.Turns stored now f φ f' φ') {total : Nat}
    (htotal : f'.claimed.length ≤ total) :
    8 * (total - f'.claimed.length) + φ'.weight < 8 * (total - f.claimed.length) + φ.weight := by
  cases h with
  | @take row _ _ hrow hrequest hattempts =>
    have hlength : ∀ change, (f.alter row.id change (f.claimed ++ [row.id])).claimed.length =
        f.claimed.length + 1 := fun _ => List.length_append
    rw [hlength] at htotal ⊢
    have hweight : φ'.weight ≤ 9 := by
      cases hattempts <;> simp [Phase.weight]
    have hclaiming : Phase.claiming.weight = 2 := rfl
    omega
  | _ => exact Nat.add_lt_add_left (by simp [Phase.weight]) _

end Turns

section Run

variable {d stored now} {s : Store}

/-- The workers in the middle of a run, with what is left to do. -/
structure Works (d : Dispatcher) (stored : Time → Time) (now : Time) (s : Store)
    (phases : List Phase) (left : Nat) (c : Staff Op Op.Reply (Bool × Option Err) Floor) :
    Prop where
  workers : c.workers = phases.map (Phase.view d now)
  count : phases.length = d.workers.toNat
  tally : d.Tally stored now s c.state (phases.flatMap Phase.held)
  dry : ∀ φ ∈ phases, φ = .missed ∨ φ = .done → Dry stored now c.state
  left_eq : left = 8 * ((due stored now s).length - c.state.claimed.length) +
    (phases.map Phase.weight).sum

theorem works_start (d : Dispatcher) (stored : Time → Time) (now : Time) (s : Store) :
    d.Works stored now s (List.replicate d.workers.toNat .fresh)
      (8 * (due stored now s).length + 4 * d.workers.toNat) (d.start stored now s) where
  workers := by
    rw [List.map_replicate]
    rfl
  count := List.length_replicate
  tally := by
    have hnone : (List.replicate d.workers.toNat Phase.fresh).flatMap Phase.held = [] := by
      simp [Phase.held]
    rw [hnone]
    exact ⟨rfl, fun _ hb _ => hb, List.nodup_nil, List.forall_mem_nil _,
      fun _ _ h => absurd h List.not_mem_nil, List.forall_mem_nil _, List.nodup_nil⟩
  dry := fun φ hφ hleaves => by
    rw [List.eq_of_mem_replicate hφ] at hleaves
    rcases hleaves with h | h <;> cases h
  left_eq := by
    rw [List.map_replicate, List.sum_replicate_nat, Nat.mul_comm 4]
    rfl

/-- A step of the run: some worker takes a turn. -/
theorem Works.step {phases : List Phase} {left : Nat}
    {c c' : Staff Op Op.Reply (Bool × Option Err) Floor} (h : d.Works stored now s phases left c)
    (hadvances : d.Advances stored now) (hnow : now.isZero = false)
    (hids : ∀ row ∈ s.outbox.rows, isBlank row.id = false)
    (hstep : (d.service stored now).Step c c') :
    ∃ left' phases', left' < left ∧ d.Works stored now s phases' left' c' := by
  obtain ⟨ps, φ, qs, w, rfl, hmoves, hworkers⟩ := hstep.viewed h.workers
  have hheld : ((ps ++ φ :: qs).flatMap Phase.held).Perm
      (φ.held ++ (ps.flatMap Phase.held ++ qs.flatMap Phase.held)) := by
    rw [List.flatMap_append, List.flatMap_cons]
    exact List.perm_append_comm_assoc _ _ _
  have htally := h.tally.perm hheld
  have hholds : ∀ id ∈ φ.held, isBlank id = false ∧
      c.state.store.outbox.rows.any (Delivery.heldBy id d.workerID) = true := by
    intro id hid
    obtain ⟨hclaimed, hany⟩ := htally.holds id (List.mem_append_left _ hid)
    obtain ⟨row, hrow, rfl⟩ := List.mem_map.mp (htally.wasDue id hclaimed)
    exact ⟨hids row (List.mem_filter.mp hrow).1, hany⟩
  obtain ⟨φ', rfl, hturns⟩ := moves_turns hnow hholds hmoves
  have htally' := hturns.tally hadvances htally
  have hcosts := hturns.costs htally'.length_le
  refine ⟨_, ps ++ φ' :: qs, ?_, ?_, ?_, ?_, ?_, rfl⟩
  · rw [h.left_eq]
    simp only [List.map_append, List.map_cons, List.sum_append, List.sum_cons]
    omega
  · rw [hworkers, List.map_append, List.map_cons]
  · rw [← h.count, List.length_append, List.length_append, List.length_cons, List.length_cons]
  · refine htally'.perm ?_
    rw [List.flatMap_append, List.flatMap_cons]
    exact List.perm_append_comm_assoc _ _ _
  · intro ψ hψ hleaves
    have hothers : ψ ∈ ps ++ qs → Dry stored now c'.state := by
      intro hmem
      refine hturns.dry hadvances (h.dry ψ ?_ hleaves)
      rcases List.mem_append.mp hmem with hmem | hmem
      · exact List.mem_append_left _ hmem
      · exact List.mem_append_right _ (List.mem_cons_of_mem _ hmem)
    rcases List.mem_append.mp hψ with hmem | hmem
    · exact hothers (List.mem_append_left _ hmem)
    rcases List.mem_cons.mp hmem with rfl | hmem
    · rcases hturns.missed hleaves with rfl | hdry
      · exact hturns.dry hadvances (h.dry .missed (by simp) (Or.inl rfl))
      · exact hdry
    · exact hothers (List.mem_append_right _ hmem)

/-- A staff that has finished has taken all there was. -/
theorem Works.finished {phases : List Phase} {left : Nat}
    {c : Staff Op Op.Reply (Bool × Option Err) Floor} (h : d.Works stored now s phases left c)
    (hdone : c.Finished) :
    c.state.claimed.Perm (due stored now s) ∧ ∀ w ∈ c.workers, w = .stopped (false, none) := by
  have hphases : ∀ φ ∈ phases, φ = .done := by
    intro φ hφ
    obtain ⟨result, hstopped⟩ := hdone (φ.view d now) (h.workers ▸ List.mem_map_of_mem hφ)
    cases φ <;> first
      | rfl
      | cases hstopped
  have hworkers : 0 < phases.length := by
    rw [h.count]
    have hpos := d.positive.1
    omega
  obtain ⟨φ, hφ⟩ := List.exists_mem_of_length_pos hworkers
  have hdry := h.dry φ hφ (Or.inr (hphases φ hφ))
  refine ⟨(List.perm_ext_iff_of_nodup h.tally.once (due_nodup s)).mpr fun id =>
    ⟨h.tally.wasDue id, fun hdue => ?_⟩, fun w hw => ?_⟩
  · by_contra hnot
    obtain ⟨row, hrow, rfl⟩ := List.mem_map.mp hdue
    obtain ⟨hmem, heligible⟩ := List.mem_filter.mp hrow
    rw [hdry row (h.tally.kept row hmem hnot)] at heligible
    cases heligible
  · rw [h.workers] at hw
    obtain ⟨ψ, hψ, rfl⟩ := List.mem_map.mp hw
    rw [hphases ψ hψ]
    rfl

/-- Every interleaving of the workers is finite, and ends with every row claimed once that was
due at the start, and no other. -/
theorem run_drains_advancing (hadvances : d.Advances stored now) (hnow : now.isZero = false)
    (hids : ∀ row ∈ s.outbox.rows, isBlank row.id = false)
    {run : List (Staff Op Op.Reply (Bool × Option Err) Floor)}
    (hrun : (d.start stored now s :: run).IsChain (d.service stored now).Step) :
    ∃ c, (d.start stored now s :: run).getLast? = some c ∧
      run.length ≤ 8 * (due stored now s).length + 4 * d.workers.toNat ∧
      (c.Finished ∨ ∃ c', (d.service stored now).Step c c') ∧
      c.state.claimed.Nodup ∧ (∀ id ∈ c.state.claimed, id ∈ due stored now s) ∧
      (c.Finished → c.state.claimed.Perm (due stored now s) ∧
        ∀ w ∈ c.workers, w = .stopped (false, none)) := by
  have hstep : ∀ n c c', (∃ phases, d.Works stored now s phases n c) →
      (d.service stored now).Step c c' →
        ∃ m, m < n ∧ ∃ phases, d.Works stored now s phases m c' := by
    rintro n c c' ⟨phases, hworks⟩ hstep
    obtain ⟨m, phases', hm, hworks'⟩ := hworks.step hadvances hnow hids hstep
    exact ⟨m, hm, phases', hworks'⟩
  obtain ⟨left, hleft, phases, hworks⟩ :=
    chain_budget hstep ⟨_, works_start d stored now s⟩ hrun
  refine ⟨_, List.getLast?_eq_some_getLast (List.cons_ne_nil _ _), by omega,
    Service.progress (frozen_answers stored now) _, hworks.tally.once, hworks.tally.wasDue,
    hworks.finished⟩

/-- Where the store keeps times as they are: `Run` terminates, and has claimed each row that was
eligible when it started exactly once, and no other. -/
theorem run_drains (d : Dispatcher) (now : Time) (s : Store) (hnow : now.isZero = false)
    (hids : ∀ row ∈ s.outbox.rows, isBlank row.id = false)
    (run : List (Staff Op Op.Reply (Bool × Option Err) Floor))
    (hrun : (d.start id now s :: run).IsChain (d.service id now).Step) :
    ∃ c, (d.start id now s :: run).getLast? = some c ∧
      run.length ≤ 8 * (due id now s).length + 4 * d.workers.toNat ∧
      (c.Finished ∨ ∃ c', (d.service id now).Step c c') ∧
      c.state.claimed.Nodup ∧ (∀ row ∈ c.state.claimed, row ∈ due id now s) ∧
      (c.Finished → c.state.claimed.Perm (due id now s) ∧
        ∀ w ∈ c.workers, w = .stopped (false, none)) :=
  run_drains_advancing (advances_exact d now) hnow hids hrun

theorem advances_milliseconds (hlease : 1000000 ≤ d.leaseDuration)
    (hbackoff : 1000000 ≤ d.initialBackoff) : d.Advances bsonTime now := by
  have hlater : ∀ delay : Duration, 1000000 ≤ delay → bsonTime now < bsonTime (now.add delay) := by
    intro delay hdelay
    have hms : (1000000 : Int) ≤ delay.toInt := Int64.le_iff_toInt_le.mp hdelay
    have hround : ∀ a b : Int, 1000000 ≤ b →
        a - a % 1000000 < a + b - (a + b) % 1000000 := by omega
    exact hround now delay.toInt hms
  exact ⟨hlater _ hlease, fun delay hlow _ => hlater delay (Int64.le_trans hbackoff hlow)⟩

/-- The store itself, which keeps whole milliseconds, is drained so too by a dispatcher with a
lease and a backoff of a millisecond or more. -/
theorem run_drains_milliseconds (hlease : 1000000 ≤ d.leaseDuration)
    (hbackoff : 1000000 ≤ d.initialBackoff) (hnow : now.isZero = false)
    (hids : ∀ row ∈ s.outbox.rows, isBlank row.id = false)
    {run : List (Staff Op Op.Reply (Bool × Option Err) Floor)}
    (hrun : (d.start bsonTime now s :: run).IsChain (d.service bsonTime now).Step) :
    ∃ c, (d.start bsonTime now s :: run).getLast? = some c ∧
      run.length ≤ 8 * (due bsonTime now s).length + 4 * d.workers.toNat ∧
      (c.Finished → c.state.claimed.Perm (due bsonTime now s)) := by
  obtain ⟨c, hlast, hlength, -, -, -, hfinished⟩ :=
    run_drains_advancing (advances_milliseconds hlease hbackoff) hnow hids hrun
  exact ⟨c, hlast, hlength, fun hdone => (hfinished hdone).1⟩

end Run

section Samples

open Scenario Controller.Scenario

/-- A row of the outbox. -/
def sampleRow (id : String) (status : NotificationStatus) (nextAttemptAt : Time)
    (leaseUntil : Option Time) : Delivery where
  id := id
  evaluationID := id
  destinationID := "hook"
  eventType := .opened
  status := status
  nextAttemptAt := nextAttemptAt
  payload := none
  leaseUntil := leaseUntil
  updatedAt := 1

/-- Two rows are eligible at noon, one is not yet. -/
def threeRows : Store where
  outbox :=
    { rows := [sampleRow "a" .pending noon none, sampleRow "b" .delivering 1 (some noon),
        sampleRow "c" .pending (noon + 1) none]
      id_unique := by decide
      key_unique := by decide }

theorem threeRows_drained :
    noon.isZero = false ∧ (∀ row ∈ threeRows.outbox.rows, isBlank row.id = false) ∧
      ∀ run, (hooked.start id noon threeRows :: run).IsChain (hooked.service id noon).Step →
        run.length ≤ 24 ∧ ∃ c, (hooked.start id noon threeRows :: run).getLast? = some c ∧
          (c.Finished → c.state.claimed.Perm ["a", "b"]) := by
  have hnow : noon.isZero = false := by decide
  have hids : ∀ row ∈ threeRows.outbox.rows, isBlank row.id = false := by decide
  have hdue : due id noon threeRows = ["a", "b"] := by decide
  refine ⟨hnow, hids, fun run hrun => ?_⟩
  obtain ⟨c, hlast, hlength, -, -, -, hfinished⟩ :=
    run_drains hooked noon threeRows hnow hids run hrun
  rw [hdue] at hlength hfinished
  exact ⟨hlength, c, hlast, fun hdone => (hfinished hdone).1⟩

end Samples

end RuleRaven.Notify.Dispatcher
