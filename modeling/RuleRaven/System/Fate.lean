import Mathlib.Data.Prod.Lex
import RuleRaven.System.Dispatching
import RuleRaven.System.Walk

namespace RuleRaven

open Framework Kube Controller Notify

section Order

/-- Where a row stands in the sort of the claim. -/
def Delivery.place (d : Delivery) : Time ×ₗ String := toLex (d.nextAttemptAt, d.id)

theorem Delivery.before_eq_false {a b : Delivery} : b.before a = false ↔ a.place ≤ b.place := by
  rw [← not_lt, Delivery.place, Delivery.place, Prod.Lex.toLex_lt_toLex, Delivery.before]
  by_cases h : b.nextAttemptAt = a.nextAttemptAt <;> simp [h]

theorem bsonTime_idem (t : Time) : bsonTime (bsonTime t) = bsonTime t := by
  have hidem : ∀ a : Int, a - a % 1000000 - (a - a % 1000000) % 1000000 = a - a % 1000000 := by
    omega
  exact hidem t

theorem le_bsonTime {t now : Time} (ht : bsonTime t = t) : t ≤ bsonTime now ↔ t ≤ now := by
  have hle : ∀ a b : Int, a - a % 1000000 = a → (a ≤ b - b % 1000000 ↔ a ≤ b) := by omega
  exact hle t now ht

/-- A row that is eligible while none that sorts before it is, is the one that a claim takes. -/
theorem claimable_of_first {s : Store} {now : Time} {d : Delivery} (hd : d ∈ s.outbox.rows)
    (heligible : d.eligible now = true)
    (hfirst : ∀ b ∈ s.outbox.rows, b.eligible now = true → b.before d = false) :
    s.claimable now = some d := by
  unfold Store.claimable Store.claimableAt
  have hsorted := sortSlice_sorted Delivery.before
    (fun a b => by simpa only [Delivery.before_eq_false] using le_total a.place b.place)
    (fun a b c => by simpa only [Delivery.before_eq_false] using le_trans)
    (s.outbox.rows.filter (Delivery.eligibleAt bsonTime now))
  have hmem : ∀ b, b ∈ sortSlice Delivery.before
      (s.outbox.rows.filter (Delivery.eligibleAt bsonTime now)) ↔
      b ∈ s.outbox.rows ∧ b.eligible now = true := fun b =>
    (sortSlice_perm _ _).mem_iff.trans List.mem_filter
  cases hlist : sortSlice Delivery.before
      (s.outbox.rows.filter (Delivery.eligibleAt bsonTime now)) with
  | nil =>
    have := (hmem d).mpr ⟨hd, heligible⟩
    rw [hlist] at this
    cases this
  | cons b rest =>
    rw [hlist] at hsorted hmem
    obtain ⟨hb, hbeligible⟩ := (hmem b).mp List.mem_cons_self
    rcases List.mem_cons.mp ((hmem d).mpr ⟨hd, heligible⟩) with rfl | hrest
    · rfl
    · have hle := Delivery.before_eq_false.mp ((List.pairwise_cons.mp hsorted).1 d hrest)
      have hge := Delivery.before_eq_false.mp (hfirst b hb hbeligible)
      have hid : b.id = d.id := congrArg (fun p => (ofLex p).2) (le_antisymm hle hge)
      rw [List.head?_cons, Table.eq_of_id hb hd hid]

end Order

/-- Nothing takes a row that is final. -/
theorem Store.Wrote.final {s t : Store} {op : StoreOp} (h : s.Wrote op t) {d : Delivery}
    (hd : d ∈ s.outbox.rows) (hfinal : d.status = .delivered ∨ d.status = .failed) :
    d ∈ t.outbox.rows := by
  have hkept : ∀ {b : Delivery}
      {change : Table.Change (fun d : Delivery => d.id) Delivery.eventKey},
      b ∈ s.outbox.rows → b.status ≠ d.status → d ∈ (s.outbox.modify b.id change).rows := by
    intro b change hb hne
    refine Table.mem_modify.mpr (Or.inl ⟨hd, fun hid => hne ?_⟩)
    rw [Table.eq_of_id hd hb hid]
  cases h with
  | nothing => exact hd
  | incident h => exact hd
  | snapshot h => exact hd
  | commit h =>
    rw [h.outbox]
    exact List.mem_append_left _ hd
  | claim h =>
    obtain ⟨hb, heligible⟩ := Store.claimable_eq_some h
    refine hkept hb fun heq => ?_
    rw [Delivery.eligible, Delivery.eligibleAt, heq] at heligible
    rcases hfinal with hfinal | hfinal <;> rw [hfinal] at heligible <;> cases heligible
  | @finalize _ id _ change b hop hb hheld =>
    simp only [Delivery.heldBy, Bool.and_eq_true, beq_iff_eq] at hheld
    obtain ⟨⟨rfl, hstatus⟩, -⟩ := hheld
    refine hkept hb fun heq => ?_
    rw [← heq, hstatus] at hfinal
    rcases hfinal with hfinal | hfinal <;> cases hfinal

/-- No row is lost, and a final row stays as it is. -/
def Store.Retains (s t : Store) : Prop :=
  ∀ d ∈ s.outbox.rows,
    (∃ d' ∈ t.outbox.rows, d'.id = d.id ∧ d'.eventKey = d.eventKey) ∧
      (d.status = .delivered ∨ d.status = .failed → d ∈ t.outbox.rows)

theorem Store.Retains.refl (s : Store) : s.Retains s :=
  fun d hd => ⟨⟨d, hd, rfl, rfl⟩, fun _ => hd⟩

theorem Store.Retains.trans {s t u : Store} (h : s.Retains t) (h' : t.Retains u) :
    s.Retains u := by
  intro d hd
  obtain ⟨⟨d₁, hd₁, hid₁, hkey₁⟩, hfinal⟩ := h d hd
  obtain ⟨d₂, hd₂, hid₂, hkey₂⟩ := (h' d₁ hd₁).1
  exact ⟨⟨d₂, hd₂, hid₂.trans hid₁, hkey₂.trans hkey₁⟩, fun hstatus =>
    (h' d (hfinal hstatus)).2 hstatus⟩

theorem Answers.retains {clock : Time} {s s' : Store} {op : Op} {reply : op.Reply}
    (h : Answers clock s op reply s') : s.Retains s' := by
  by_cases hop : op.outside
  · rw [h.outside hop]
    exact Store.Retains.refl s
  · cases op with
    | store op =>
      exact fun d hd => ⟨h.grows.outbox d hd, (StoreAnswer.wrote h).final hd⟩
    | _ => exact absurd trivial hop

variable {ι : Type}

section Attempts

/-- A notifier was called with the row and answered. -/
def Called (trace : List (Event ι)) (i : ι) (destination row : String)
    (reply : Option DeliveryError) : Prop :=
  ∃ envelope clock s t, envelope.id = row ∧
    (⟨i, .deliver destination envelope, reply, clock, s, t⟩ : Event ι) ∈ trace

/-- Some notifier took the row without an error. -/
def Sent (trace : List (Event ι)) (row : String) : Prop :=
  ∃ i destination, Called trace i destination row none

/-- An execution of the dispatcher claimed the delivery, with the number of claims of the row so
far as its attempts. -/
def Took (trace : List (Event ι)) (i : ι) (d : Dispatcher) (now : Time) (delivery : Delivery) :
    Prop :=
  ∃ past future clock s t, trace = past ++ (⟨i, .store (.outboxClaim
      ⟨d.workerID, now, d.leaseDuration⟩), .ok (some delivery), clock, s, t⟩ : Event ι) :: future ∧
    delivery.attempts = (claimsOn past delivery.id).length + 1

/-- How an attempt at a delivery ends in an error. -/
inductive Fails (trace : List (Event ι)) (i : ι) (d : Dispatcher) (now : Time)
    (delivery : Delivery) : DeliveryError → Prop
  | unknownDestination (h : delivery.destinationID ∉ d.notifiers) :
      Fails trace i d now delivery (refused "unknown_destination")
  | invalidEnvelope {err : Err} (h : newEnvelope delivery.id delivery.eventType d.clusterID now
      (dataOf delivery) = .error err) : Fails trace i d now delivery (refused "invalid_delivery")
  | notifier {err : DeliveryError}
      (h : Called trace i delivery.destinationID delivery.id (some err)) :
      Fails trace i d now delivery err

/-- Whether a later attempt may mend the error. -/
def Notify.DeliveryError.retryable (err : DeliveryError) : Bool :=
  err.classified.any (·.retryable) || err.deadlineExceeded

/-- An attempt at the row ended in an error that no retry mends, or that may not be retried. -/
def GaveUp (tasks : ι → Task → Prop) (trace : List (Event ι)) (row : String) : Prop :=
  ∃ i d now delivery err, tasks i (.dispatch d) ∧ delivery.id = row ∧
    Took trace i d now delivery ∧ Fails trace i d now delivery err ∧
      (err.retryable = false ∨ d.maxAttempts ≤ delivery.attempts)

variable {tasks : ι → Task → Prop} {trace : List (Event ι)} {i : ι} {d : Dispatcher} {now : Time}
  {delivery : Delivery} {row : String}

theorem Called.later {destination : String} {reply : Option DeliveryError}
    (h : Called trace i destination row reply) (others : List (Event ι)) :
    Called (trace ++ others) i destination row reply := by
  obtain ⟨envelope, clock, s, t, hid, he⟩ := h
  exact ⟨envelope, clock, s, t, hid, List.mem_append_left _ he⟩

theorem Sent.later (h : Sent trace row) (others : List (Event ι)) : Sent (trace ++ others) row := by
  obtain ⟨i, destination, hcalled⟩ := h
  exact ⟨i, destination, hcalled.later others⟩

theorem Took.later (h : Took trace i d now delivery) (others : List (Event ι)) :
    Took (trace ++ others) i d now delivery := by
  obtain ⟨past, future, clock, s, t, rfl, hattempts⟩ := h
  exact ⟨past, future ++ others, clock, s, t, by simp, hattempts⟩

theorem Fails.later {err : DeliveryError} (h : Fails trace i d now delivery err)
    (others : List (Event ι)) : Fails (trace ++ others) i d now delivery err := by
  cases h with
  | unknownDestination h => exact .unknownDestination h
  | invalidEnvelope h => exact .invalidEnvelope h
  | notifier h => exact .notifier (h.later others)

theorem GaveUp.later (h : GaveUp tasks trace row) (others : List (Event ι)) :
    GaveUp tasks (trace ++ others) row := by
  obtain ⟨i, d, now, delivery, err, htask, hid, htook, hfails, hfinal⟩ := h
  exact ⟨i, d, now, delivery, err, htask, hid, htook.later others, hfails.later others, hfinal⟩

end Attempts

/-- What the trace says of a row of the outbox. -/
structure Fate (tasks : ι → Task → Prop) (trace : List (Event ι)) (d : Delivery) : Prop where
  attempts : d.attempts = (claimsOn trace d.id).length
  due : bsonTime d.nextAttemptAt = d.nextAttemptAt
  lease : ∀ u, d.leaseUntil = some u → bsonTime u = u
  leased : d.status = .delivering → d.leaseUntil.isSome = true
  delivered : d.status = .delivered → Sent trace d.id
  failed : d.status = .failed → GaveUp tasks trace d.id

structure Fated (tasks : ι → Task → Prop) (w : World ι) : Prop where
  claimed : ∀ row, claimsOn w.trace row ≠ [] → ∃ d ∈ w.store.outbox.rows, d.id = row
  fate : ∀ d ∈ w.store.outbox.rows, Fate tasks w.trace d

/-- An operation that the trace warrants: new rows are untried, and a row is completed or given
up only after an attempt that ended so. -/
def Warranted (tasks : ι → Task → Prop) (trace : List (Event ι)) : StoreOp → Prop
  | .commit request => ∀ n ∈ request.deliveries, n.status = .pending ∧ n.attempts = 0
  | .outboxComplete request => Sent trace request.id
  | .outboxReschedule request => request.failure = .permanent → GaveUp tasks trace request.id
  | _ => True

section Steps

variable {tasks : ι → Task → Prop} {w : World ι} {i : ι}

/-- A fate is told by what follows, as long as the row is not claimed. -/
theorem Fate.later {trace others : List (Event ι)} {d : Delivery} (h : Fate tasks trace d)
    (hclaims : claimsOn (trace ++ others) d.id = claimsOn trace d.id) :
    Fate tasks (trace ++ others) d where
  attempts := by rw [hclaims]; exact h.attempts
  due := h.due
  lease := h.lease
  leased := h.leased
  delivered hstatus := (h.delivered hstatus).later others
  failed hstatus := (h.failed hstatus).later others

theorem Fated.unchanged (hw : Fated tasks w) {op : Op} {reply : op.Reply} :
    Fated tasks (w.extend i op reply w.store) := by
  have hclaims : ∀ row, claimsOn (w.extend i op reply w.store).trace row = claimsOn w.trace row :=
    fun row => claimsOn_quiet (Event.claim?_unchanged rfl)
  refine ⟨fun row hne => ?_, fun d hd => (hw.fate d hd).later (hclaims d.id)⟩
  rw [hclaims] at hne
  exact hw.claimed row hne

/-- A row that nobody has claimed and that was just inserted. -/
theorem fate_added {trace : List (Event ι)} {n : Notification} {t : Time}
    (hn : n.status = .pending ∧ n.attempts = 0) (hclaims : claimsOn trace n.id = []) :
    Fate tasks trace (n.toDocument t) where
  attempts := by
    show n.attempts = (claimsOn trace n.id).length
    rw [hn.2, hclaims]
    rfl
  due := bsonTime_idem _
  lease := fun u hu => by cases hu
  leased := fun hstatus => by
    rw [show (n.toDocument t).status = n.status from rfl, hn.1] at hstatus
    cases hstatus
  delivered := fun hstatus => by
    rw [show (n.toDocument t).status = n.status from rfl, hn.1] at hstatus
    cases hstatus
  failed := fun hstatus => by
    rw [show (n.toDocument t).status = n.status from rfl, hn.1] at hstatus
    cases hstatus

theorem Fate.claim {trace others : List (Event ι)} {b : Delivery} (h : Fate tasks trace b)
    (request : ClaimRequest)
    (hclaims : (claimsOn (trace ++ others) b.id).length = (claimsOn trace b.id).length + 1) :
    Fate tasks (trace ++ others) ((claimChange request).apply b) where
  attempts := by
    show b.attempts + 1 = (claimsOn (trace ++ others) b.id).length
    rw [hclaims, h.attempts, Nat.cast_succ]
  due := h.due
  lease := by
    rintro u ⟨⟩
    exact bsonTime_idem _
  leased := fun _ => rfl
  delivered := fun hstatus => by cases hstatus
  failed := fun hstatus => by cases hstatus

theorem Fate.complete {trace others : List (Event ι)} {b : Delivery} (h : Fate tasks trace b)
    {request : CompleteRequest} (hid : b.id = request.id) (hsent : Sent trace request.id)
    (hclaims : claimsOn (trace ++ others) b.id = claimsOn trace b.id) :
    Fate tasks (trace ++ others) ((completeChange request).apply b) where
  attempts := by
    show b.attempts = (claimsOn (trace ++ others) b.id).length
    rw [hclaims, h.attempts]
  due := h.due
  lease := fun u hu => by cases hu
  leased := fun hstatus => by cases hstatus
  delivered := fun _ => by
    show Sent (trace ++ others) b.id
    rw [hid]
    exact hsent.later others
  failed := fun hstatus => by cases hstatus

theorem Fate.reschedule {trace others : List (Event ι)} {b : Delivery} (h : Fate tasks trace b)
    {request : RescheduleRequest} (hid : b.id = request.id)
    (hgave : request.failure = .permanent → GaveUp tasks trace request.id)
    (hclaims : claimsOn (trace ++ others) b.id = claimsOn trace b.id) :
    Fate tasks (trace ++ others) ((rescheduleChange request).apply b) where
  attempts := by
    show b.attempts = (claimsOn (trace ++ others) b.id).length
    rw [hclaims, h.attempts]
  due := by
    unfold rescheduleChange rescheduleChangeAt
    cases request.failure with
    | retryable => exact bsonTime_idem _
    | permanent => exact h.due
  lease := fun u hu => by cases hu
  leased := fun hstatus => absurd hstatus (rescheduleChange_status request b)
  delivered := fun hstatus => by
    unfold rescheduleChange rescheduleChangeAt at hstatus
    cases hfailure : request.failure <;> rw [hfailure] at hstatus <;> cases hstatus
  failed := fun hstatus => by
    show GaveUp tasks (trace ++ others) b.id
    rw [hid]
    refine (hgave ?_).later others
    unfold rescheduleChange rescheduleChangeAt at hstatus
    cases hfailure : request.failure with
    | retryable =>
      rw [hfailure] at hstatus
      cases hstatus
    | permanent => rfl

theorem Fated.claim (hw : Fated tasks w) {request : ClaimRequest}
    {reply : (Op.store (.outboxClaim request)).Reply} {d : Delivery}
    (hd : w.store.claimable request.now = some d) :
    Fated tasks (w.extend i (.store (.outboxClaim request)) reply
      { w.store with outbox := w.store.outbox.modify d.id (claimChange request) }) := by
  obtain ⟨c, hclaim, hrow⟩ : ∃ c : Claim ι, (⟨i, .store (.outboxClaim request), reply, w.clock,
      w.store, { w.store with outbox := w.store.outbox.modify d.id (claimChange request) }⟩ :
        Event ι).claim? = some c ∧ c.row = d.id := by
    have hclaim := claim?_claim hd i reply w.clock
    rw [Store.claim_eq_some hd] at hclaim
    exact ⟨_, hclaim, rfl⟩
  have hmem := (Store.claimable_eq_some hd).1
  refine ⟨fun row hne => ?_, fun b hb => ?_⟩
  · apply (Store.grows_modifyOutbox w.store d.id (claimChange request)).delivery
    by_cases hid : d.id = row
    · exact ⟨d, hmem, hid⟩
    · rw [World.extend, claimsOn_other hclaim (hrow.trans_ne hid)] at hne
      exact hw.claimed row hne
  · rcases Table.mem_modify.mp hb with ⟨hb, hother⟩ | ⟨b, hold, hid, rfl⟩
    · exact (hw.fate b hb).later (claimsOn_other hclaim (hrow.trans_ne hother.symm))
    · refine (hw.fate b hold).claim request ?_
      rw [claimsOn_same hclaim (hrow.trans hid.symm), List.length_append]
      rfl

/-- Every operation that the trace warrants leaves the outbox in order. -/
theorem Fated.extend (hw : Fated tasks w) {op : StoreOp} (hop : Warranted tasks w.trace op)
    {reply : (Op.store op).Reply} {s' : Store} (hanswer : StoreAnswer w.store op reply s') :
    Fated tasks (w.extend i (.store op) reply s') := by
  have hwrote := hanswer.wrote
  -- Unless the event is a claim, nothing is claimed by it.
  have hquiet : (∀ request, op ≠ .outboxClaim request) → ∀ row,
      claimsOn (w.extend i (.store op) reply s').trace row = claimsOn w.trace row := by
    intro hne row
    refine claimsOn_quiet ?_
    cases op with
    | outboxClaim request => exact absurd rfl (hne request)
    | _ => rfl
  have hkept : (∀ row, claimsOn (w.extend i (.store op) reply s').trace row =
      claimsOn w.trace row) → (∀ d ∈ s'.outbox.rows, d ∈ w.store.outbox.rows ∨
        Fate tasks (w.extend i (.store op) reply s').trace d) →
      Fated tasks (w.extend i (.store op) reply s') := by
    intro hclaims hrows
    refine ⟨fun row hne => ?_, fun d hd => (hrows d hd).elim
      (fun hold => (hw.fate d hold).later (hclaims d.id)) id⟩
    rw [hclaims] at hne
    exact hwrote.grows.delivery (hw.claimed row hne)
  cases hwrote with
  | nothing => exact hw.unchanged
  | incident h => exact hkept (hquiet fun _ h => by cases h) fun d hd => Or.inl hd
  | snapshot h => exact hkept (hquiet fun _ h => by cases h) fun d hd => Or.inl hd
  | @commit request _ h =>
    have hclaims := hquiet fun _ h => by cases h
    refine hkept hclaims fun d hd => ?_
    have hunique := s'.outbox.id_unique
    rw [h.outbox, List.map_append, List.nodup_append] at hunique
    rw [h.outbox, List.mem_append, List.mem_map] at hd
    refine hd.imp_right ?_
    rintro ⟨n, hn, rfl⟩
    refine fate_added (hop n hn) ((hclaims n.id).trans ?_)
    by_contra hne
    obtain ⟨b, hb, hid⟩ := hw.claimed n.id hne
    exact hunique.2.2 b.id (List.mem_map_of_mem hb) _
      (List.mem_map_of_mem (List.mem_map_of_mem hn)) hid
  | @claim request d hd => exact hw.claim hd
  | @finalize _ id workerID change d hfinal hd hheld =>
    have hclaims := hquiet (by rintro request rfl; cases hfinal)
    refine hkept hclaims fun b hb => ?_
    rcases Table.mem_modify.mp hb with ⟨hb, -⟩ | ⟨b, hold, hid, rfl⟩
    · exact Or.inl hb
    · refine Or.inr ?_
      cases hfinal with
      | complete request => exact (hw.fate b hold).complete hid hop (hclaims b.id)
      | reschedule request => exact (hw.fate b hold).reschedule hid hop (hclaims b.id)

theorem issues_warranted {H : Hasher} {r : Reconciler} {key : ResourceKey} {op : StoreOp}
    (h : Reconciler.Issues H r key op) (trace : List (Event ι)) : Warranted tasks trace op := by
  cases h with
  | commit incident created decided hp =>
    intro n hn
    simp only [Reconciler.commitRequest, Reconciler.deliveries] at hn
    split_ifs at hn
    · cases hn
    · obtain ⟨destination, -, rfl⟩ := List.mem_map.mp hn
      exact ⟨rfl, rfl⟩
  | _ => trivial

end Steps

section Dispatch

variable {tasks : ι → Task → Prop} {w : World ι} {i : ι} {α : Type}

/-- The program leaves the outbox in order, as execution `i` from `w` on. -/
def Orders (tasks : ι → Task → Prop) (i : ι) (Q : α → World ι → Prop) (p : Eff α) (w : World ι) :
    Prop :=
  Keeps (fun _ _ _ => True) (Fated tasks) i Q p w

/-- A fact about the trace that no later event undoes. -/
theorem stable_later (i : ι) (P : List (Event ι) → Prop)
    (hP : ∀ trace others, P trace → P (trace ++ others)) : Stable i fun w => P w.trace := by
  intro w w' hr h
  obtain ⟨others, htrace, -⟩ := hr.trace
  rw [htrace]
  exact hP w.trace others h

/-- How the attempt at a delivery that was taken ended. -/
def Tried (trace : List (Event ι)) (i : ι) (d : Dispatcher) (delivery : Delivery)
    (outcome : Option DeliveryError) : Prop :=
  ∃ now, Took trace i d now delivery ∧ match outcome with
    | none => Sent trace delivery.id
    | some err => Fails trace i d now delivery err

theorem Tried.later {trace : List (Event ι)} {d : Dispatcher} {delivery : Delivery}
    {outcome : Option DeliveryError} (h : Tried trace i d delivery outcome)
    (others : List (Event ι)) : Tried (trace ++ others) i d delivery outcome := by
  obtain ⟨now, htook, hended⟩ := h
  refine ⟨now, htook.later others, ?_⟩
  cases outcome with
  | none => exact Sent.later hended others
  | some err => exact Fails.later hended others

/-- What is known of the trace survives a call outside of the store. -/
theorem orders_outside (P : List (Event ι) → Prop)
    (hP : ∀ trace others, P trace → P (trace ++ others)) {op : Op} (hop : op.outside)
    (hw : P w.trace) : Orders tasks i (fun _ w' => P w'.trace) (Prog.perform op) w := by
  refine keeps_perform (stable_later i P hP) (fun v reply s' hinv hv _ hanswer => ?_) hw
  obtain rfl := hanswer.outside hop
  exact ⟨hinv.unchanged, hP _ _ hv⟩

theorem orders_store (P : List (Event ι) → Prop)
    (hP : ∀ trace others, P trace → P (trace ++ others)) {op : StoreOp}
    (hop : ∀ trace, P trace → Warranted tasks trace op) (hw : P w.trace) :
    Orders tasks i (fun _ _ => True) (Eff.store op) w :=
  keeps_perform (stable_later i P hP)
    (fun v _ _ hinv hv _ hanswer => ⟨hinv.extend (hop v.trace hv) hanswer, trivial⟩) hw

/-- A delivery that was claimed is taken, at the attempt that the row counts. -/
theorem orders_claim (d : Dispatcher) (now : Time) :
    Orders tasks i (fun reply w' => ∀ delivery, reply = .ok (some delivery) →
      Took w'.trace i d now delivery)
      (Eff.store (.outboxClaim ⟨d.workerID, now, d.leaseDuration⟩)) w := by
  refine keeps_perform (stable_const i True)
    (fun v reply s' hinv _ _ hanswer =>
      ⟨hinv.extend (show Warranted tasks v.trace (.outboxClaim _) from trivial) hanswer, ?_⟩)
    trivial
  rintro delivery rfl
  obtain ⟨b, hb, rfl, rfl⟩ := claim_answered hanswer
  have hattempts := (hinv.fate b (Store.claimable_eq_some hb).1).attempts
  refine ⟨v.trace, [], v.clock, v.store, _, rfl, ?_⟩
  show b.attempts + 1 = (claimsOn v.trace b.id).length + 1
  rw [hattempts]

theorem orders_attempt {d : Dispatcher} {delivery : Delivery} {now : Time}
    (hw : Took w.trace i d now delivery) :
    Orders tasks i (fun outcome w' => Tried w'.trace i d delivery outcome)
      (d.attempt delivery now) w := by
  unfold Dispatcher.attempt
  split_ifs with hknown
  · split
    · rename_i err herr
      exact keeps_ret ⟨now, hw, .invalidEnvelope herr⟩
    · rename_i envelope henvelope
      refine keeps_perform
        (stable_later i (Took · i d now delivery) fun _ others h => h.later others)
        (fun v reply s' hinv hv _ hanswer => ?_) hw
      obtain rfl := hanswer
      have hcalled : Called (v.trace ++ [⟨i, .deliver delivery.destinationID envelope, reply,
          v.clock, v.store, v.store⟩]) i delivery.destinationID delivery.id reply :=
        ⟨envelope, v.clock, v.store, v.store, (newEnvelope_ok henvelope).1,
          List.mem_append_right _ (List.mem_singleton_self _)⟩
      refine ⟨hinv.unchanged, now, hv.later _, ?_⟩
      cases reply with
      | none => exact ⟨i, _, hcalled⟩
      | some err => exact .notifier hcalled
  · exact keeps_ret ⟨now, hw, .unknownDestination hknown⟩

/-- Only an attempt that may not be retried is given up. -/
theorem classify_permanent {d : Dispatcher} {attempts : Int} {err : DeliveryError}
    (h : (d.classify attempts err).1 = .permanent) :
    err.retryable = false ∨ d.maxAttempts ≤ attempts := by
  by_contra hnot
  rw [not_or, Bool.not_eq_false, not_le] at hnot
  unfold Dispatcher.classify at h
  rw [if_pos (by rw [Bool.and_eq_true]; exact ⟨hnot.1, decide_eq_true hnot.2⟩)] at h
  dsimp only at h
  split at h
  · cases h
  · split_ifs at h

theorem orders_dispatchOne {d : Dispatcher} (htask : tasks i (.dispatch d)) :
    Orders tasks i (fun _ _ => True) d.dispatchOne w := by
  have hidle : ∀ op (v : World ι), op.outside →
      Orders tasks i (fun _ _ => True) (Prog.perform op) v := fun op v hop =>
    orders_outside (fun _ => True) (fun _ _ _ => trivial) hop trivial
  have htried : ∀ delivery outcome op (v : World ι), op.outside →
      Tried v.trace i d delivery outcome → Orders tasks i
        (fun _ v' => Tried v'.trace i d delivery outcome) (Prog.perform op) v :=
    fun delivery outcome op v hop =>
      orders_outside (Tried · i d delivery outcome) (fun _ others h => h.later others) hop
  refine keeps_dispatchOne d (fun _ => True) (fun _ _ => True)
    (fun now delivery v => Took v.trace i d now delivery)
    (fun delivery outcome v => Tried v.trace i d delivery outcome)
    (fun v _ => hidle .ctxErr v trivial) (fun v _ => hidle .now v trivial)
    (fun now v _ => orders_claim d now) (fun delivery now v hv => orders_attempt hv)
    (fun delivery outcome v hv => htried delivery outcome .ctxErr v trivial hv)
    (fun delivery outcome v hv => htried delivery outcome .now v trivial hv)
    (fun delivery now v hv => ?_) (fun delivery err now v hv => ?_) trivial
  · refine orders_store (Tried · i d delivery none) (fun _ others h => h.later others) ?_ hv
    rintro trace ⟨taken, -, hsent⟩
    exact hsent
  · refine orders_store (Tried · i d delivery (some err)) (fun _ others h => h.later others) ?_ hv
    rintro trace ⟨taken, htook, hfails⟩ hpermanent
    exact ⟨i, d, taken, delivery, err, htask, rfl, htook, hfails, classify_permanent hpermanent⟩

end Dispatch

theorem runs_fated {H : Hasher} {tasks : ι → Task → Prop} {t : Time}
    {c : Framework.Config ι Op Op.Reply Unit (World ι)}
    (hrun : Runs H tasks (fun _ _ _ => True) (initial ι t) c) : Fated tasks c.state := by
  refine runs_keep (fun t => ⟨fun row h => absurd rfl h, by simp⟩) (fun _ _ _ h => ⟨h.1, h.2⟩)
    (fun _ _ h _ => ⟨h.1, h.2⟩) (fun i task w htask _ _ => ?_) hrun
  cases task with
  | reconcile r key =>
    refine keeps_bind (keeps_reconcile r key (fun v op reply _ _ hinv => hinv.unchanged)
      fun v op reply s' hop _ hinv hanswer => hinv.extend (issues_warranted hop v.trace) hanswer)
      fun _ _ _ => keeps_ret trivial
  | dispatch d => exact keeps_bind (orders_dispatchOne htask) fun _ _ _ => keeps_ret trivial

/-- Pending and due, or delivering under a lease that is over. -/
def Delivery.Due (d : Delivery) (now : Time) : Prop :=
  (d.status = .pending ∧ d.nextAttemptAt ≤ now) ∨
    (d.status = .delivering ∧ ∃ u, d.leaseUntil = some u ∧ u ≤ now)

/-- Stored times are whole milliseconds, so the query's rounding does not delay a row. -/
theorem Fate.eligible_iff {tasks : ι → Task → Prop} {trace : List (Event ι)} {d : Delivery}
    (h : Fate tasks trace d) (now : Time) : d.eligible now = true ↔ d.Due now := by
  unfold Delivery.eligible Delivery.eligibleAt Delivery.Due
  cases d.status with
  | pending => simp [le_bsonTime h.due]
  | delivering =>
    cases hu : d.leaseUntil with
    | none => simp
    | some u => simp [le_bsonTime (h.lease u hu)]
  | delivered => simp
  | failed => simp

/-- In every run, whatever calls are made by whatever executions and wherever they are cut off,
no row of the outbox is lost and every final state is honest. -/
theorem outbox_honest (H : Hasher) (tasks : ι → Task → Prop) (t : Time)
    (c c' : Framework.Config ι Op Op.Reply Unit (World ι))
    (hrun : Runs H tasks (fun _ _ _ => True) (initial ι t) c)
    (hrun' : Runs H tasks (fun _ _ _ => True) c c') :
    ∀ d ∈ c.state.store.outbox.rows,
      (∃ d' ∈ c'.state.store.outbox.rows, d'.id = d.id ∧ d'.eventKey = d.eventKey) ∧
      (d.status = .delivered ∨ d.status = .failed → d ∈ c'.state.store.outbox.rows) ∧
      (d.status ≠ .delivered → d.status ≠ .failed →
        d.status = .pending ∨ (d.status = .delivering ∧ d.leaseUntil.isSome = true)) ∧
      (∀ request : ClaimRequest, d.Due request.now →
        (∀ b ∈ c.state.store.outbox.rows, b.Due request.now → b.before d = false) →
        (c.state.store.claim request).1 = some ((claimChange request).apply d)) ∧
      (d.status = .delivered → Sent c.state.trace d.id) ∧
      (d.status = .failed → GaveUp tasks c.state.trace d.id) ∧
      d.attempts = (claimsOn c.state.trace d.id).length := by
  intro d hd
  have hfated := runs_fated hrun
  have hfate := hfated.fate d hd
  have hretains : c.state.store.Retains c'.state.store := by
    refine steps_related (R := fun v v' => v.store.Retains v'.store)
      (fun v => Store.Retains.refl v.store) (fun _ _ _ h h' => h.trans h') ?_ ?_
      (fun i v => Store.Retains.refl v.store) hrun'
    · rintro i op v reply v' ⟨-, s', hanswer, rfl⟩
      exact hanswer.retains
    · rintro v v' ⟨u, -, rfl⟩
      exact Store.Retains.refl v.store
  refine ⟨(hretains d hd).1, (hretains d hd).2, ?_, ?_, hfate.delivered, hfate.failed,
    hfate.attempts⟩
  · intro hdelivered hfailed
    cases hstatus : d.status with
    | pending => exact Or.inl rfl
    | delivering => exact Or.inr ⟨rfl, hfate.leased hstatus⟩
    | delivered => exact absurd hstatus hdelivered
    | failed => exact absurd hstatus hfailed
  · intro request hdue hfirst
    have hclaimable := claimable_of_first hd ((hfate.eligible_iff _).mpr hdue) fun b hb heligible =>
      hfirst b hb (((hfated.fate b hb).eligible_iff _).mp heligible)
    rw [Store.claim_eq_some hclaimable]

open Scenario Controller.Scenario

/-- A delivery that was retried is final, and whoever dispatches later leaves it alone. -/
theorem retried_delivery_final :
    ∃ (c c' : Framework.Config Nat Op Op.Reply Unit (World Nat)) (d : Delivery),
      Runs checksumHasher (fun _ _ => True) (fun _ _ _ => True) (initial Nat noon) c ∧
      Runs checksumHasher (fun _ _ => True) (fun _ _ _ => True) c c' ∧
      d ∈ c.state.store.outbox.rows ∧ d.status = .delivered ∧ d ∈ c'.state.store.outbox.rows ∧
      Sent c.state.trace d.id ∧ (claimsOn c.state.trace d.id).length = 2 := by
  have hfacts : (play checksumHasher (fun _ _ => True) (fun _ _ _ => true) retried
      (initial Nat noon)).any (fun c =>
        (play checksumHasher (fun _ _ => True) (fun _ _ _ => true)
          [.wait 2000000000, .start 3 (.dispatch hooked), dispatches 3 20 none] c).any (fun _ =>
        c.state.store.outbox.rows.any fun d => decide (d.status = .delivered ∧ d.attempts = 2))) =
      true := by
    decide +kernel
  obtain ⟨c, hplay, hrest⟩ := (Option.any_eq_true _ _).mp hfacts
  obtain ⟨c', hplay', hrows⟩ := (Option.any_eq_true _ _).mp hrest
  obtain ⟨d, hd, hfinal⟩ := List.any_eq_true.mp hrows
  obtain ⟨hstatus, hattempts⟩ := of_decide_eq_true hfinal
  have hrun : Runs checksumHasher (fun _ _ => True) (fun _ _ _ => True) (initial Nat noon) c :=
    steps_restrict_mono (fun _ _ _ _ => trivial) (runs_of_play hplay)
  have hrun' : Runs checksumHasher (fun _ _ => True) (fun _ _ _ => True) c c' :=
    steps_restrict_mono (fun _ _ _ _ => trivial) (runs_of_play hplay')
  obtain ⟨-, hkept, -, -, hsent, -, hclaims⟩ :=
    outbox_honest checksumHasher (fun _ _ => True) noon c c' hrun hrun' d hd
  refine ⟨c, c', d, hrun, hrun', hd, hstatus, hkept (Or.inl hstatus), hsent hstatus, ?_⟩
  rw [hattempts] at hclaims
  exact_mod_cast hclaims.symm

end RuleRaven
