import RuleRaven.Notify.Phases
import RuleRaven.System.Acts

namespace RuleRaven

open Framework Kube Controller Notify

variable {ι : Type}

section Policy

/-- Whose dispatchers retry as this one does, in the name of the same cluster. -/
def Abides (d : Dispatcher) : Task → Prop
  | .reconcile _ _ => True
  | .dispatch d' => d'.maxAttempts = d.maxAttempts ∧ d'.initialBackoff = d.initialBackoff ∧
      d'.maxBackoff = d.maxBackoff ∧ d'.clusterID = d.clusterID

instance (d : Dispatcher) (task : Task) : Decidable (Abides d task) :=
  match task with
  | .reconcile _ _ => isTrue trivial
  | .dispatch _ => inferInstanceAs (Decidable (_ ∧ _ ∧ _ ∧ _))

variable {d d' : Dispatcher}

theorem backoffLoop_congr (h : d'.maxBackoff = d.maxBackoff) (n : Nat) (delay : Duration) :
    d'.backoffLoop n delay = d.backoffLoop n delay := by
  induction n generalizing delay with
  | zero => simp only [Dispatcher.backoffLoop, h]
  | succ n ih => simp only [Dispatcher.backoffLoop, h, ih]

theorem backoff_congr (h : Abides d (.dispatch d')) (n : Int) : d'.backoff n = d.backoff n := by
  obtain ⟨-, hinitial, hmax, -⟩ := h
  rw [Dispatcher.backoff, Dispatcher.backoff, hinitial, backoffLoop_congr hmax]

/-- Only an attempt that may be retried is. -/
theorem classify_retryable {attempts : Int} {err : DeliveryError}
    (h : (d.classify attempts err).1 = .retryable) :
    err.retryable = true ∧ attempts < d.maxAttempts := by
  unfold Dispatcher.classify at h
  split_ifs at h with hretry
  rw [Bool.and_eq_true] at hretry
  exact ⟨hretry.1, of_decide_eq_true hretry.2⟩

theorem rescheduleChange_retryable {request : RescheduleRequest}
    (h : request.failure = .retryable) (b : Delivery) :
    ((rescheduleChange request).apply b).status = .pending ∧
      ((rescheduleChange request).apply b).nextAttemptAt = bsonTime request.nextAttemptAt := by
  unfold rescheduleChange rescheduleChangeAt
  rw [h]
  exact ⟨rfl, rfl⟩

theorem rescheduleChange_permanent {request : RescheduleRequest}
    (h : request.failure = .permanent) (b : Delivery) :
    ((rescheduleChange request).apply b).status = .failed := by
  unfold rescheduleChange rescheduleChangeAt
  rw [h]

theorem spaces_rescheduleRequest (hd' : Abides d (.dispatch d')) {delivery : Delivery}
    {err : DeliveryError} (h : (d'.classify delivery.attempts err).1 = .retryable) (now : Time) :
    d.Spaces delivery.attempts (d'.rescheduleRequest delivery err now) := by
  have hdelay := d'.classify_delay h
  rw [backoff_congr hd', hd'.2.2.1] at hdelay
  exact ⟨h, _, rfl, hdelay⟩

end Policy

section Calls

variable {d d' : Dispatcher} {i : ι} {w : World ι} {α : Type}

/-- As long as all goes smoothly, the rows are on course. -/
def Smoothly (d : Dispatcher) (w : World ι) : Prop := (∀ e ∈ w.trace, e.Smooth) → Coursed d w

/-- The program keeps to the retry policy of `d`, as execution `i` from `w` on. -/
def Abiding (d : Dispatcher) (i : ι) (Q : α → World ι → Prop) (p : Eff α) (w : World ι) : Prop :=
  Keeps (fun _ _ _ => True) (Smoothly d) i Q p w

/-- One call of an execution that knows what it did. -/
theorem abiding_perform {op : Op} {acts : List (String × Act ι)} {Q : op.Reply → World ι → Prop}
    (hact : ∀ v reply s', Did i acts v → Answers v.clock v.store op reply s' →
      (Coursed d v → (⟨i, op, reply, v.clock, v.store, s'⟩ : Event ι).Smooth →
        Coursed d (v.extend i op reply s')) ∧ Q reply (v.extend i op reply s'))
    (hw : Did i acts w) : Abiding d i Q (Prog.perform op) w := by
  refine keeps_perform (stable_did i acts) (fun v reply s' hinv hv _ hanswer => ?_) hw
  obtain ⟨hcoursed, hQ⟩ := hact v reply s' hv hanswer
  refine ⟨fun hsmooth => hcoursed (hinv fun e he => hsmooth e (List.mem_append_left _ he)) ?_, hQ⟩
  exact hsmooth _ (List.mem_append_right _ (List.mem_singleton_self _))

theorem abiding_ctxErr {acts : List (String × Act ι)} (hw : Did i acts w) :
    Abiding d i (fun _ => Did i acts) Eff.ctxErr w := by
  refine abiding_perform (fun v reply s' hv hanswer => ?_) hw
  obtain rfl : s' = v.store := hanswer
  exact ⟨fun hcoursed _ => hcoursed.unchanged rfl, hv.quiet rfl⟩

theorem abiding_now {acts : List (String × Act ι)} (hw : Did i acts w) :
    Abiding d i (fun _ => Did i acts) Eff.now w := by
  refine abiding_perform (fun v reply s' hv hanswer => ?_) hw
  obtain ⟨-, rfl⟩ := hanswer
  exact ⟨fun hcoursed _ => hcoursed.unchanged rfl, hv.quiet rfl⟩

/-- What an execution knows of the delivery that it has claimed. -/
def Claimed (i : ι) (owner : String) (delivery : Delivery) (w : World ι) : Prop :=
  Did i [(delivery.id, .claim i delivery)] w ∧ delivery.leaseOwner = owner

/-- What it knows once the attempt is over. -/
def Attempted (i : ι) (owner : String) (delivery : Delivery) (outcome : Option DeliveryError)
    (w : World ι) : Prop :=
  delivery.leaseOwner = owner ∧
    ((∃ kind, outcome = some (refused kind) ∧ Did i [(delivery.id, .claim i delivery)] w) ∨
      ∃ envelope, Did i [(delivery.id, .claim i delivery),
        (delivery.id, .send i envelope outcome)] w)

theorem abiding_claim {request : ClaimRequest} (hw : Did i [] w) :
    Abiding d i (fun reply w' => ∀ delivery, reply = .ok (some delivery) →
      Claimed i request.workerID delivery w') (Eff.store (.outboxClaim request)) w := by
  refine abiding_perform (fun v reply s' hv hanswer => ⟨fun hcoursed hsmooth => ?_, ?_⟩) hw
  · obtain rfl : s' = (v.store.claim request).2 := hsmooth.done _ rfl
    cases hb : v.store.claimable request.now with
    | none =>
      have hstore : (v.store.claim request).2 = v.store := by rw [Store.claim_eq_none hb]
      rw [hstore]
      exact hcoursed.unchanged (by simp [Event.act?])
    | some b =>
      have hmem := (Store.claimable_eq_some hb).1
      have hact := act?_claim hb i reply v.clock
      refine hcoursed.modify hmem (by rw [Store.claim_eq_some hb]) hact ?_
      obtain ⟨outcomes, stage, hcourse, hshows⟩ := hcoursed.course b hmem
      have hstatus := hsmooth.free request b rfl hb
      cases stage with
      | pending last =>
        refine ⟨outcomes, _, .claim hcourse rfl ?_, rfl, rfl⟩
        show b.attempts + 1 = (outcomes.length : Int) + 1
        rw [hshows.2.1]
      | _ =>
        rw [hshows.1] at hstatus
        cases hstatus
  · rintro delivery rfl
    obtain ⟨b, hb, rfl, rfl⟩ := claim_answered hanswer
    exact ⟨hv.act (act?_claim hb i _ v.clock), rfl⟩

theorem abiding_attempt (hd' : Abides d (.dispatch d')) {delivery : Delivery} {now : Time}
    (hw : Claimed i d'.workerID delivery w) :
    Abiding d i (Attempted i d'.workerID delivery) (d'.attempt delivery now) w := by
  obtain ⟨hdid, howner⟩ := hw
  unfold Dispatcher.attempt
  split_ifs with hknown
  · split
    · exact keeps_ret ⟨howner, Or.inl ⟨_, rfl, hdid⟩⟩
    · rename_i envelope henvelope
      have hid := (newEnvelope_ok henvelope).1
      refine abiding_perform (fun v reply s' hv hanswer => ?_) hdid
      obtain rfl : s' = v.store := hanswer
      have hact : (⟨i, .deliver delivery.destinationID envelope, reply, v.clock, v.store,
          v.store⟩ : Event ι).act? = some (delivery.id, .send i envelope reply) := by
        rw [← hid]
        rfl
      refine ⟨fun hcoursed _ => ?_, howner, Or.inr ⟨envelope, hv.act hact⟩⟩
      obtain ⟨hmem, hstatus, outcomes, hcourse⟩ := hcoursed.held hv
      refine hcoursed.act hact (Store.Grows.refl _) ⟨delivery, hmem, rfl⟩ fun b hb => ?_
      by_cases hrow : b.id = delivery.id
      · obtain rfl := Table.eq_of_id hb hmem hrow
        have hstamp := newEnvelope_stamp henvelope
        rw [hd'.2.2.2] at hstamp
        exact Or.inr ⟨rfl, outcomes, _, hcourse.send hstamp, hstatus, rfl⟩
      · exact Or.inl ⟨hb, hrow⟩
  · exact keeps_ret ⟨howner, Or.inl ⟨_, rfl, hdid⟩⟩

/-- The row is still held by the execution that finalizes it. -/
theorem Coursed.finalize {op : StoreOp} {reply : (Op.store op).Reply} {s' : Store}
    (hw : Coursed d w) {delivery : Delivery} {owner : String} {act : Act ι}
    {change : Table.Change (fun d : Delivery => d.id) Delivery.eventKey}
    (hmem : delivery ∈ w.store.outbox.rows) (hstatus : delivery.status = .delivering)
    (howner : delivery.leaseOwner = owner)
    (hs' : s' = (w.store.finalize delivery.id owner change).2)
    (hact : (⟨i, .store op, reply, w.clock, w.store, s'⟩ : Event ι).act? =
      some (delivery.id, act))
    (hcourse : (change.apply delivery).OnCourse d (actsOn w.trace delivery.id ++ [act])) :
    Coursed d (w.extend i (.store op) reply s') := by
  refine hw.modify hmem ?_ hact hcourse
  have hheld : w.store.outbox.rows.any (Delivery.heldBy delivery.id owner) = true :=
    List.any_eq_true.mpr ⟨delivery, hmem, by simp [Delivery.heldBy, hstatus, howner]⟩
  rw [hs', Dispatcher.finalize_held hheld]

theorem abiding_complete {delivery : Delivery} {now : Time}
    (hw : Attempted i d'.workerID delivery none w) :
    Abiding d i (fun _ _ => True)
      (Eff.store (.outboxComplete (d'.completeRequest delivery now))) w := by
  obtain ⟨howner, ⟨kind, hkind, -⟩ | ⟨envelope, hdid⟩⟩ := hw
  · cases hkind
  refine abiding_perform (fun v reply s' hv _ => ⟨fun hcoursed hsmooth => ?_, trivial⟩) hdid
  obtain ⟨hmem, hstatus, outcomes, hcourse⟩ := hcoursed.answered hv
  have hattempts := hcourse.follows.2.2.trans (length_concat outcomes none).symm
  exact hcoursed.finalize hmem hstatus howner (hsmooth.done _ rfl) rfl
    ⟨_, _, hcourse.complete, rfl, hattempts⟩

theorem abiding_reschedule (hd' : Abides d (.dispatch d')) {delivery : Delivery}
    {err : DeliveryError} {now : Time} (hw : Attempted i d'.workerID delivery (some err) w) :
    Abiding d i (fun _ _ => True)
      (Eff.store (.outboxReschedule (d'.rescheduleRequest delivery err now))) w := by
  obtain ⟨howner, ⟨kind, hkind, hdid⟩ | ⟨envelope, hdid⟩⟩ := hw
  · -- Nothing was sent, and there is nothing to retry.
    obtain rfl := Option.some.inj hkind
    have hfailure : (d'.rescheduleRequest delivery (refused kind) now).failure = .permanent := rfl
    refine abiding_perform (fun v reply s' hv _ => ⟨fun hcoursed hsmooth => ?_, trivial⟩) hdid
    obtain ⟨hmem, hstatus, outcomes, hcourse⟩ := hcoursed.held hv
    have hattempts := hcourse.follows.2.2.trans (length_concat outcomes (some (refused kind))).symm
    exact hcoursed.finalize hmem hstatus howner (hsmooth.done _ rfl) rfl
      ⟨_, _, hcourse.refuse kind hfailure, rfl, hattempts⟩
  · refine abiding_perform (fun v reply s' hv _ => ⟨fun hcoursed hsmooth => ?_, trivial⟩) hdid
    obtain ⟨hmem, hstatus, outcomes, hcourse⟩ := hcoursed.answered hv
    have hattempts := hcourse.follows.2.2
    have hlength := hattempts.trans (length_concat outcomes (some err)).symm
    refine hcoursed.finalize hmem hstatus howner (hsmooth.done _ rfl) rfl ?_
    cases hclass : (d'.classify delivery.attempts err).1 with
    | retryable =>
      obtain ⟨hretryable, hleft⟩ := classify_retryable hclass
      have hspaces := spaces_rescheduleRequest hd' hclass now
      rw [hattempts] at hleft hspaces
      rw [hd'.1] at hleft
      obtain ⟨hpending, hnext⟩ := rescheduleChange_retryable hspaces.failure delivery
      refine ⟨_, _, hcourse.retry hretryable hleft hspaces, hpending, hlength, ?_⟩
      rintro request ⟨⟩
      exact hnext
    | permanent =>
      have hfinal := classify_permanent hclass
      rw [hattempts, hd'.1] at hfinal
      exact ⟨_, _, hcourse.giveUp hfinal hclass, rescheduleChange_permanent hclass delivery,
        hlength⟩

theorem abiding_dispatchOne (hd' : Abides d (.dispatch d')) (hw : Did i [] w) :
    Abiding d i (fun _ _ => True) d'.dispatchOne w := by
  have hattempted : ∀ {β : Type} {p : Eff β} (delivery outcome) (v : World ι),
      (∀ acts, Did i acts v → Abiding d i (fun _ => Did i acts) p v) →
      Attempted i d'.workerID delivery outcome v →
      Abiding d i (fun _ => Attempted i d'.workerID delivery outcome) p v := by
    rintro β p delivery outcome v hp ⟨howner, ⟨kind, hkind, hdid⟩ | ⟨envelope, hdid⟩⟩
    · exact keeps_mono (hp _ hdid) fun _ _ h => ⟨howner, Or.inl ⟨kind, hkind, h⟩⟩
    · exact keeps_mono (hp _ hdid) fun _ _ h => ⟨howner, Or.inr ⟨envelope, h⟩⟩
  exact keeps_dispatchOne d' (Did i []) (fun _ => Did i [])
    (fun _ delivery => Claimed i d'.workerID delivery) (Attempted i d'.workerID)
    (fun v hv => abiding_ctxErr hv) (fun v hv => abiding_now hv)
    (fun now v hv => abiding_claim hv) (fun delivery now v hv => abiding_attempt hd' hv)
    (fun delivery outcome v hv => hattempted delivery outcome v (fun _ => abiding_ctxErr) hv)
    (fun delivery outcome v hv => hattempted delivery outcome v (fun _ => abiding_now) hv)
    (fun delivery now v hv => abiding_complete hv)
    (fun delivery err now v hv => abiding_reschedule hd' hv) hw

/-- What `Reconcile` does to the outbox: it may add rows that are not tried yet. -/
theorem outbox_enlists {s t : Store} {op : StoreOp} (hop : Reconciler.enlists (.store op))
    (h : s.Wrote op t) : ∀ b ∈ t.outbox.rows, b ∈ s.outbox.rows ∨
      (b.status = .pending ∧ b.attempts = 0 ∧ ∀ x ∈ s.outbox.rows, x.id ≠ b.id) := by
  intro b hb
  rcases outbox_records (Reconciler.records_of_enlists hop) h b hb with hold | ⟨-, hfresh⟩
  · exact Or.inl hold
  · cases h with
    | @commit request _ h =>
      rw [h.outbox, List.mem_append, List.mem_map] at hb
      refine hb.imp_right ?_
      rintro ⟨n, hn, rfl⟩
      exact ⟨(hop n hn).1, (hop n hn).2, hfresh⟩
    | nothing => exact Or.inl hb
    | incident _ => exact Or.inl hb
    | snapshot _ => exact Or.inl hb
    | claim _ => exact hop.elim
    | finalize hfinal _ _ => cases hfinal <;> exact hop.elim

theorem abiding_reconcile {H : Hasher} (r : Reconciler) (key : ResourceKey) (hw : Did i [] w) :
    Abiding d i (fun _ _ => True) (r.reconcile H key) w := by
  refine keeps_mono (keeps_only (stable_did i []) (fun op v reply s' hop hinv hv _ hanswer => ?_)
    (Reconciler.reconcile_enlists key) hw) fun _ _ _ => trivial
  have hact : ∀ s', (⟨i, op, reply, v.clock, v.store, s'⟩ : Event ι).act? = none := by
    intro s'
    cases op with
    | store op => cases op <;> first | exact hop.elim | rfl
    | deliver destination envelope => exact hop.elim
    | _ => rfl
  refine ⟨fun hsmooth => ?_, hv.quiet (hact s')⟩
  have hcoursed := hinv fun e he => hsmooth e (List.mem_append_left _ he)
  by_cases hout : op.outside
  · obtain rfl := hanswer.outside hout
    exact hcoursed.unchanged (hact _)
  · cases op with
    | store op =>
      exact hcoursed.quiet (hact s') hanswer.grows
        (outbox_enlists hop (StoreAnswer.wrote hanswer))
    | _ => exact absurd trivial hout

end Calls

theorem runs_coursed {H : Hasher} {d : Dispatcher} {t : Time}
    {c : Framework.Config ι Op Op.Reply Unit (World ι)}
    (hrun : Runs H (fun _ => Abides d) (fun _ _ _ => True) (initial ι t) c) :
    Smoothly d c.state := by
  refine runs_keep (fun t _ => ⟨fun row act h => ?_, by simp⟩)
    (fun w t _ hw hsmooth => ⟨(hw hsmooth).acted, (hw hsmooth).course⟩)
    (fun w gone hw _ hsmooth => ⟨(hw hsmooth).acted, (hw hsmooth).course⟩)
    (fun i task w htask hunused _ => ?_) hrun
  · cases task with
    | reconcile r key =>
      exact keeps_bind (abiding_reconcile r key (did_nothing hunused)) fun _ _ _ =>
        keeps_ret trivial
    | dispatch d' =>
      exact keeps_bind (abiding_dispatchOne htask (did_nothing hunused)) fun _ _ _ =>
        keeps_ret trivial
  · cases h

/-- What the retry policy comes to for a row. -/
structure Delivery.Retried (d : Dispatcher) (trace : List (Event ι)) (b : Delivery) : Prop where
  bounded : ((sends (actsOn trace b.id)).length : Int) ≤ d.maxAttempts
  alike : ∀ sent ∈ sends (actsOn trace b.id), sent.1.id = b.id ∧ sent.1.type = b.eventType ∧
    sent.1.source = clusterSource d.clusterID ∧ sent.1.data = dataOf b
  spaced : b.status = .pending → 0 < b.attempts → b.attempts < d.maxAttempts ∧
    ∃ earlier i request, actsOn trace b.id = earlier ++ [.reschedule i request] ∧
      d.Spaces b.attempts request ∧ b.nextAttemptAt = bsonTime request.nextAttemptAt ∧
      (d.backoff b.attempts).toInt - 1000000 < b.nextAttemptAt - request.now ∧
      b.nextAttemptAt - request.now ≤ d.maxBackoff.toInt
  delivered : b.status ≠ .delivering →
    (b.status = .delivered ↔ ∃ envelope, (envelope, none) ∈ sends (actsOn trace b.id))
  decided : ∃ outcomes stage,
    Course d (b.stamp d.clusterID) (actsOn trace b.id) outcomes stage ∧
    (b.status ≠ .delivering → b.attempts = outcomes.length) ∧
    (b.status = .pending → Mendable outcomes ∧ b.attempts < d.maxAttempts) ∧
    (b.status = .delivered → ∃ earlier, Mendable earlier ∧ outcomes = earlier ++ [none]) ∧
    (b.status = .failed → ∃ earlier err, Mendable earlier ∧ outcomes = earlier ++ [some err] ∧
      (err.retryable = false ∨ b.attempts = d.maxAttempts))

/-- The times that are kept are less than a millisecond early. -/
theorem bsonTime_lt (t : Time) : t - 1000000 < bsonTime t := by
  have hlt : ∀ a : Int, a - 1000000 < a - a % 1000000 := by omega
  exact hlt t

theorem Notify.Dispatcher.Spaces.stored {d : Dispatcher} {n : Int} {request : RescheduleRequest}
    (h : d.Spaces n request) :
    (d.backoff n).toInt - 1000000 < bsonTime request.nextAttemptAt - request.now ∧
      bsonTime request.nextAttemptAt - request.now ≤ d.maxBackoff.toInt := by
  have hround : ∀ now delay low high stored : Int, now + delay - 1000000 < stored →
      stored ≤ now + delay → low ≤ delay → delay ≤ high →
      low - 1000000 < stored - now ∧ stored - now ≤ high := by omega
  obtain ⟨delay, hnext, hlow, hhigh⟩ := h.delay
  rw [hnext]
  exact hround request.now delay.toInt _ _ _ (bsonTime_lt _) (bsonTime_le _)
    (Int64.le_iff_toInt_le.mp hlow) (Int64.le_iff_toInt_le.mp hhigh)

theorem Delivery.OnCourse.retried {d : Dispatcher} {trace : List (Event ι)} {b : Delivery}
    (h : b.OnCourse d (actsOn trace b.id)) : b.Retried d trace := by
  obtain ⟨outcomes, stage, hcourse, hshows⟩ := h
  have hfollows := hcourse.follows
  have hsent := hcourse.sent_iff
  refine ⟨hcourse.sends_le, fun sent hmem => ?_, fun hstatus htried => ?_, fun hstatus => ?_,
    outcomes, stage, hcourse, ?_⟩
  · simpa [Envelope.stamp, Delivery.stamp] using hcourse.stamped sent hmem
  · cases stage with
    | pending last =>
      obtain ⟨-, hattempts, hnext⟩ := hshows
      obtain ⟨-, hleft, hlast⟩ := hfollows
      rw [hattempts] at htried ⊢
      obtain ⟨request, rfl, hspaces⟩ := hlast (by exact_mod_cast htried)
      obtain ⟨earlier, i, hacts⟩ := hcourse.rescheduled rfl
      rw [hnext request rfl]
      exact ⟨hleft, earlier, i, request, hacts, hspaces, rfl, hspaces.stored⟩
    | _ =>
      rw [hshows.1] at hstatus
      cases hstatus
  · rw [hsent]
    cases stage with
    | pending last => simp [hshows.1, hfollows.1.none_not_mem]
    | held i delivery => exact absurd hshows.1 hstatus
    | answered i delivery reply => exact absurd hshows.1 hstatus
    | delivered =>
      obtain ⟨-, earlier, -, rfl⟩ := hfollows
      simp [hshows.1]
    | failed =>
      obtain ⟨-, earlier, err, hmendable, rfl, -⟩ := hfollows
      simp [hshows.1, hmendable.none_not_mem]
  · cases stage with
    | pending last =>
      obtain ⟨hstatus, hattempts, -⟩ := hshows
      rw [hstatus, hattempts]
      exact ⟨fun _ => rfl, fun _ => ⟨hfollows.1, hfollows.2.1⟩, nofun, nofun⟩
    | held i delivery =>
      rw [hshows.1]
      exact ⟨fun h => absurd rfl h, nofun, nofun, nofun⟩
    | answered i delivery reply =>
      rw [hshows.1]
      exact ⟨fun h => absurd rfl h, nofun, nofun, nofun⟩
    | delivered =>
      rw [hshows.1, hshows.2]
      exact ⟨fun _ => rfl, nofun, fun _ => hfollows.2, nofun⟩
    | failed =>
      rw [hshows.1, hshows.2]
      exact ⟨fun _ => rfl, nofun, nofun, fun _ => hfollows.2⟩

/-- In every run in which the context stays alive, the store does what it is called for and no
claim outlives its lease, whatever the notifiers answer: every row is retried by the policy of
the dispatchers, and no retry that they ask for is refused for its time. -/
theorem deliveries_retried (H : Hasher) (d : Dispatcher) (t : Time)
    (c : Framework.Config ι Op Op.Reply Unit (World ι))
    (hrun : Runs H (fun _ => Abides d) (fun _ _ _ => True) (initial ι t) c)
    (hsmooth : ∀ e ∈ c.state.trace, e.Smooth) :
    (∀ b ∈ c.state.store.outbox.rows, b.Retried d c.state.trace) ∧
      ∀ delivery err taken envelope now,
        newEnvelope delivery.id delivery.eventType d.clusterID taken (dataOf delivery) =
          .ok envelope → now.isZero = false →
        ∃ next, Mongo.rescheduleDelivery (d.rescheduleRequest delivery err now) =
          .call (.store (.outboxReschedule (d.rescheduleRequest delivery err now))) next := by
  refine ⟨fun b hb => ((runs_coursed hrun hsmooth).course b hb).retried, ?_⟩
  intro delivery err taken envelope now henvelope hnow
  have hid : isBlank delivery.id = false := by
    unfold newEnvelope at henvelope
    split_ifs at henvelope with hmissing
    simpa using fun h => hmissing (Or.inl h)
  obtain ⟨next, hcall, -⟩ := Dispatcher.rescheduleDelivery_call
    (d.rescheduleRequest delivery err now) hid d.identified.1 hnow
    (d.reschedule_not_before delivery err)
  exact ⟨next, hcall⟩

/-- Whether an event is smooth, by computation. -/
def Event.checkSmooth (e : Event ι) : Bool :=
  e.alive && match e.op with
    | .store (.outboxClaim request) =>
      decide (e.after = (e.before.apply (.outboxClaim request)).2) &&
        (e.before.claimable request.now).all fun b => b.status == .pending
    | .store op => decide (e.after = (e.before.apply op).2)
    | _ => true

theorem Event.smooth_of_check {e : Event ι} (h : e.checkSmooth = true) : e.Smooth := by
  obtain ⟨worker, op, reply, clock, before, after⟩ := e
  rw [checkSmooth, Bool.and_eq_true] at h
  obtain ⟨hlive, h⟩ := h
  cases op with
  | store op =>
    cases op with
    | outboxClaim request =>
      rw [Bool.and_eq_true, Option.all_eq_true] at h
      refine ⟨hlive, ?_, ?_⟩
      · rintro op ⟨⟩
        exact of_decide_eq_true h.1
      · rintro request b ⟨⟩ hb
        exact beq_iff_eq.mp (h.2 b hb)
    | _ =>
      refine ⟨hlive, ?_, fun request b hop => by cases hop⟩
      rintro op ⟨⟩
      exact of_decide_eq_true h
  | _ =>
    refine ⟨hlive, ?_, ?_⟩
    · intro op hop
      cases hop
    · intro request b hop
      cases hop

/-- Whether a row is due again before the backoff of its attempts is over. -/
def Delivery.dueEarly (d : Dispatcher) (trace : List (Event ι)) (b : Delivery) : Bool :=
  match (actsOn trace b.id).getLast? with
  | some (.reschedule _ request) => request.failure = .retryable ∧
      b.nextAttemptAt - request.now < (d.backoff b.attempts).toInt
  | _ => false

theorem Delivery.early_of_dueEarly {d : Dispatcher} {trace : List (Event ι)} {b : Delivery}
    (h : b.dueEarly d trace = true) :
    ∃ earlier i request, actsOn trace b.id = earlier ++ [.reschedule i request] ∧
      request.failure = .retryable ∧
      b.nextAttemptAt - request.now < (d.backoff b.attempts).toInt := by
  unfold dueEarly at h
  split at h
  · rename_i i request hlast
    obtain ⟨earlier, hacts⟩ := List.getLast?_eq_some_iff.mp hlast
    exact ⟨earlier, i, request, hacts, of_decide_eq_true h⟩
  · cases h

namespace Scenario

open Controller.Scenario

/-- A delivery fails at a time that is not a whole number of milliseconds. -/
def hasty : List Turn :=
  [.start 0 (.reconcile notifying (jobCall 0 1).key), dispatches 0 20 none, .wait 1,
    .start 1 (.dispatch hooked), dispatches 1 20 (some unreachable)]

end Scenario

open Scenario Controller.Scenario

/-- The second attempt at a delivery is the last one. -/
theorem retried_delivery_bounded :
    ∃ (c : Crew) (b : Delivery),
      Runs checksumHasher (fun _ => Abides hooked) (fun _ _ _ => True) (initial Nat noon) c ∧
      (∀ e ∈ c.state.trace, e.Smooth) ∧ b ∈ c.state.store.outbox.rows ∧
      b.status = .delivered ∧ b.attempts = 2 ∧ b.Retried hooked c.state.trace := by
  have hfacts : (play checksumHasher (fun _ => Abides hooked) (fun _ _ _ => true) retried
      (initial Nat noon)).any (fun c => c.state.trace.all Event.checkSmooth &&
        c.state.store.outbox.rows.any fun b =>
          decide (b.status = .delivered ∧ b.attempts = 2)) = true := by
    decide +kernel
  obtain ⟨c, hplay, hrest⟩ := (Option.any_eq_true _ _).mp hfacts
  rw [Bool.and_eq_true, List.all_eq_true] at hrest
  obtain ⟨b, hb, hfinal⟩ := List.any_eq_true.mp hrest.2
  obtain ⟨hstatus, hattempts⟩ := of_decide_eq_true hfinal
  have hsmooth : ∀ e ∈ c.state.trace, e.Smooth := fun e he => Event.smooth_of_check (hrest.1 e he)
  have hrun : Runs checksumHasher (fun _ => Abides hooked) (fun _ _ _ => True)
      (initial Nat noon) c :=
    steps_restrict_mono (fun _ _ _ _ => trivial) (runs_of_play hplay)
  exact ⟨c, b, hrun, hsmooth, hb, hstatus, hattempts,
    (deliveries_retried checksumHasher hooked noon c hrun hsmooth).1 b hb⟩

/-- A row is due again before the backoff is over, since its time is kept in milliseconds. -/
theorem hasty_retry_early :
    ∃ (c : Crew) (b : Delivery) (earlier : List (Act Nat)) (i : Nat) (request : RescheduleRequest),
      play checksumHasher (fun _ => Abides hooked) (fun _ _ _ => true) hasty (initial Nat noon) =
        some c ∧
      Runs checksumHasher (fun _ => Abides hooked) (fun _ _ _ => True) (initial Nat noon) c ∧
      (∀ e ∈ c.state.trace, e.Smooth) ∧ b ∈ c.state.store.outbox.rows ∧
      b.status = .pending ∧ b.attempts = 1 ∧
      actsOn c.state.trace b.id = earlier ++ [.reschedule i request] ∧
      request.failure = .retryable ∧
      b.nextAttemptAt - request.now < (hooked.backoff 1).toInt := by
  have hfacts : (play checksumHasher (fun _ => Abides hooked) (fun _ _ _ => true) hasty
      (initial Nat noon)).any (fun c => c.state.trace.all Event.checkSmooth &&
        c.state.store.outbox.rows.any fun b =>
          decide (b.status = .pending ∧ b.attempts = 1) && b.dueEarly hooked c.state.trace) =
      true := by
    decide +kernel
  obtain ⟨c, hplay, hrest⟩ := (Option.any_eq_true _ _).mp hfacts
  rw [Bool.and_eq_true, List.all_eq_true] at hrest
  obtain ⟨b, hb, hrow⟩ := List.any_eq_true.mp hrest.2
  rw [Bool.and_eq_true, decide_eq_true_eq] at hrow
  obtain ⟨⟨hstatus, hattempts⟩, hearly⟩ := hrow
  obtain ⟨earlier, i, request, hacts, hfailure, hdue⟩ := Delivery.early_of_dueEarly hearly
  rw [hattempts] at hdue
  exact ⟨c, b, earlier, i, request, hplay,
    steps_restrict_mono (fun _ _ _ _ => trivial) (runs_of_play hplay),
    fun e he => Event.smooth_of_check (hrest.1 e he), hb, hstatus, hattempts, hacts, hfailure, hdue⟩

end RuleRaven
