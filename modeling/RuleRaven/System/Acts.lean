import RuleRaven.System.Course

namespace RuleRaven

open Framework Notify

variable {ι : Type}

namespace Event

/-- What an event is about a row, and about which. A claim that fails or finds nothing is
nothing. -/
def act? (e : Event ι) : Option (String × Act ι) :=
  match e with
  | ⟨i, .store (.outboxClaim request), _, _, before, after⟩ =>
    if after = before then none
    else (before.claimable request.now).map fun b =>
      (b.id, .claim i ((claimChange request).apply b))
  | ⟨i, .deliver _ envelope, reply, _, _, _⟩ => some (envelope.id, .send i envelope reply)
  | ⟨i, .store (.outboxComplete request), _, _, _, _⟩ => some (request.id, .complete i)
  | ⟨i, .store (.outboxReschedule request), _, _, _, _⟩ =>
    some (request.id, .reschedule i request)
  | _ => none

def alive (e : Event ι) : Bool :=
  match e with
  | ⟨_, .ctxErr, reply, _, _, _⟩ => reply.isNone
  | _ => true

/-- The context is alive, the store did what it was called for, and a claim found no row whose
lease had run out. -/
structure Smooth (e : Event ι) : Prop where
  live : e.alive = true
  done : ∀ op, e.op = .store op → e.after = (e.before.apply op).2
  free : ∀ request b, e.op = .store (.outboxClaim request) →
    e.before.claimable request.now = some b → b.status = .pending

theorem act?_actor {e : Event ι} {row : String} {act : Act ι} (h : e.act? = some (row, act)) :
    act.actor = e.worker := by
  unfold act? at h
  split at h
  · split_ifs at h
    obtain ⟨b, -, heq⟩ := Option.map_eq_some_iff.mp h
    cases heq
    rfl
  all_goals cases h
  all_goals rfl

end Event

theorem act?_claim {s : Store} {request : ClaimRequest} {b : Delivery}
    (hb : s.claimable request.now = some b) (i : ι)
    (reply : (Op.store (.outboxClaim request)).Reply) (clock : Time) :
    (⟨i, .store (.outboxClaim request), reply, clock, s, (s.claim request).2⟩ : Event ι).act? =
      some (b.id, .claim i ((claimChange request).apply b)) := by
  simp only [Event.act?, if_neg (claim_ne hb), hb, Option.map_some]

/-- What was done about a row, in its order. -/
def actsOn (trace : List (Event ι)) (row : String) : List (Act ι) :=
  (trace.filterMap Event.act?).filterMap fun act => if act.1 = row then some act.2 else none

section Acts

variable {trace : List (Event ι)} {e : Event ι} {act : Act ι} {row other : String}

theorem mem_actsOn : act ∈ actsOn trace row ↔ ∃ e ∈ trace, e.act? = some (row, act) := by
  simp only [actsOn, List.mem_filterMap]
  constructor
  · rintro ⟨⟨x, y⟩, ⟨e, he, hact⟩, hrow⟩
    split_ifs at hrow with hx
    cases hrow
    exact ⟨e, he, by rw [hact, ← hx]⟩
  · rintro ⟨e, he, hact⟩
    exact ⟨(row, act), ⟨e, he, hact⟩, if_pos rfl⟩

theorem actsOn_quiet (h : e.act? = none) : actsOn (trace ++ [e]) row = actsOn trace row := by
  simp [actsOn, h]

theorem actsOn_act (h : e.act? = some (row, act)) :
    actsOn (trace ++ [e]) row = actsOn trace row ++ [act] := by
  simp [actsOn, h]

theorem actsOn_other (h : e.act? = some (other, act)) (hne : other ≠ row) :
    actsOn (trace ++ [e]) row = actsOn trace row := by
  simp [actsOn, h, hne]

end Acts

section Knowledge

/-- What an execution has done so far. -/
def Did (i : ι) (acts : List (String × Act ι)) (w : World ι) : Prop :=
  ∀ act, act ∈ acts ↔ ∃ e ∈ w.trace, e.worker = i ∧ e.act? = some act

variable {i : ι} {acts : List (String × Act ι)} {w : World ι}

theorem did_nothing (h : w.Unused i) : Did i [] w := by
  intro act
  constructor
  · intro hact
    cases hact
  · rintro ⟨e, he, hi, -⟩
    exact absurd hi (h.1 e he)

theorem stable_did (i : ι) (acts : List (String × Act ι)) : Stable i (Did i acts) := by
  intro w w' hr h act
  obtain ⟨others, htrace, hothers⟩ := hr.trace
  rw [h act]
  constructor
  · rintro ⟨e, he, hi⟩
    exact ⟨e, by rw [htrace]; exact List.mem_append_left _ he, hi⟩
  · rintro ⟨e, he, hi⟩
    rw [htrace, List.mem_append] at he
    exact ⟨e, he.resolve_right fun hother => hothers e hother hi.1, hi⟩

variable {op : Op} {reply : op.Reply} {s' : Store}

theorem Did.quiet (h : Did i acts w)
    (hact : (⟨i, op, reply, w.clock, w.store, s'⟩ : Event ι).act? = none) :
    Did i acts (w.extend i op reply s') := by
  intro act
  rw [h act]
  constructor
  · rintro ⟨e, he, hi⟩
    exact ⟨e, List.mem_append_left _ he, hi⟩
  · rintro ⟨e, he, hi, heq⟩
    rcases List.mem_append.mp he with hold | hnew
    · exact ⟨e, hold, hi, heq⟩
    · rw [List.mem_singleton.mp hnew, hact] at heq
      cases heq

theorem Did.act (h : Did i acts w) {act : String × Act ι}
    (hact : (⟨i, op, reply, w.clock, w.store, s'⟩ : Event ι).act? = some act) :
    Did i (acts ++ [act]) (w.extend i op reply s') := by
  intro x
  rw [List.mem_append, h x, List.mem_singleton]
  constructor
  · rintro (⟨e, he, hi⟩ | rfl)
    · exact ⟨e, List.mem_append_left _ he, hi⟩
    · exact ⟨_, List.mem_append_right _ (List.mem_singleton_self _), rfl, hact⟩
  · rintro ⟨e, he, hi, heq⟩
    rcases List.mem_append.mp he with hold | hnew
    · exact Or.inl ⟨e, hold, hi, heq⟩
    · rw [List.mem_singleton.mp hnew, hact] at heq
      exact Or.inr (Option.some.inj heq).symm

end Knowledge

/-- What a row shows of its stage. -/
def Stage.Shows (outcomes : List (Option DeliveryError)) (b : Delivery) : Stage ι → Prop
  | .pending last => b.status = .pending ∧ b.attempts = outcomes.length ∧
      ∀ request, last = some request → b.nextAttemptAt = bsonTime request.nextAttemptAt
  | .held _ delivery | .answered _ delivery _ => b.status = .delivering ∧ b = delivery
  | .delivered => b.status = .delivered ∧ b.attempts = outcomes.length
  | .failed => b.status = .failed ∧ b.attempts = outcomes.length

/-- The row has come where it stands by the retry policy. -/
def Delivery.OnCourse (d : Dispatcher) (acts : List (Act ι)) (b : Delivery) : Prop :=
  ∃ outcomes stage, Course d (b.stamp d.clusterID) acts outcomes stage ∧ stage.Shows outcomes b

structure Coursed (d : Dispatcher) (w : World ι) : Prop where
  acted : ∀ row act, act ∈ actsOn w.trace row → ∃ b ∈ w.store.outbox.rows, b.id = row
  course : ∀ b ∈ w.store.outbox.rows, b.OnCourse d (actsOn w.trace b.id)

namespace Coursed

variable {d : Dispatcher} {w : World ι} {i : ι} {op : Op} {reply : op.Reply} {s' : Store}

/-- A call about no row, by which rows may be added. -/
theorem quiet (hw : Coursed d w)
    (hact : (⟨i, op, reply, w.clock, w.store, s'⟩ : Event ι).act? = none)
    (hgrow : w.store.Grows s')
    (hrows : ∀ b ∈ s'.outbox.rows, b ∈ w.store.outbox.rows ∨
      (b.status = .pending ∧ b.attempts = 0 ∧ ∀ x ∈ w.store.outbox.rows, x.id ≠ b.id)) :
    Coursed d (w.extend i op reply s') := by
  have hacts : ∀ row, actsOn (w.extend i op reply s').trace row = actsOn w.trace row :=
    fun row => actsOn_quiet hact
  refine ⟨fun row act hmem => ?_, fun b hb => ?_⟩
  · rw [hacts] at hmem
    exact hgrow.delivery (hw.acted row act hmem)
  · rw [hacts]
    rcases hrows b hb with hold | ⟨hstatus, hattempts, hfresh⟩
    · exact hw.course b hold
    · have hnone : actsOn w.trace b.id = [] := by
        refine List.eq_nil_iff_forall_not_mem.mpr fun act hmem => ?_
        obtain ⟨x, hx, hid⟩ := hw.acted b.id act hmem
        exact hfresh x hx hid
      rw [hnone]
      exact ⟨[], .pending none, .start, hstatus, hattempts, fun _ h => by cases h⟩

theorem unchanged (hw : Coursed d w)
    (hact : (⟨i, op, reply, w.clock, w.store, w.store⟩ : Event ι).act? = none) :
    Coursed d (w.extend i op reply w.store) :=
  hw.quiet hact (Store.Grows.refl _) fun _ hb => Or.inl hb

/-- A call about a row, which changes no other one. -/
theorem act (hw : Coursed d w) {row : String} {act : Act ι}
    (hact : (⟨i, op, reply, w.clock, w.store, s'⟩ : Event ι).act? = some (row, act))
    (hgrow : w.store.Grows s') (hrow : ∃ b ∈ w.store.outbox.rows, b.id = row)
    (hrows : ∀ b ∈ s'.outbox.rows, (b ∈ w.store.outbox.rows ∧ b.id ≠ row) ∨
      (b.id = row ∧ b.OnCourse d (actsOn w.trace row ++ [act]))) :
    Coursed d (w.extend i op reply s') := by
  refine ⟨fun other x hmem => ?_, fun b hb => ?_⟩
  · apply hgrow.delivery
    by_cases hother : row = other
    · exact hother ▸ hrow
    · rw [World.extend, actsOn_other hact hother] at hmem
      exact hw.acted other x hmem
  · rcases hrows b hb with ⟨hold, hne⟩ | ⟨rfl, hcourse⟩
    · rw [World.extend, actsOn_other hact (Ne.symm hne)]
      exact hw.course b hold
    · rw [World.extend, actsOn_act hact]
      exact hcourse

/-- A call by which a row is changed. -/
theorem modify (hw : Coursed d w) {b : Delivery} (hb : b ∈ w.store.outbox.rows) {act : Act ι}
    {change : Table.Change (fun d : Delivery => d.id) Delivery.eventKey}
    (hs' : s' = { w.store with outbox := w.store.outbox.modify b.id change })
    (hact : (⟨i, op, reply, w.clock, w.store, s'⟩ : Event ι).act? = some (b.id, act))
    (hcourse : (change.apply b).OnCourse d (actsOn w.trace b.id ++ [act])) :
    Coursed d (w.extend i op reply s') := by
  subst hs'
  refine hw.act hact (Store.grows_modifyOutbox _ _ _) ⟨b, hb, rfl⟩ fun x hx => ?_
  rcases Table.mem_modify.mp hx with ⟨hold, hne⟩ | ⟨y, hy, hid, rfl⟩
  · exact Or.inl ⟨hold, hne⟩
  · obtain rfl := Table.eq_of_id hy hb hid
    exact Or.inr ⟨change.id_apply y, hcourse⟩

/-- The row that an execution has claimed and not finalized, with its stage. -/
theorem waits (hw : Coursed d w) {acts : List (String × Act ι)} {row : String}
    {delivery : Delivery} (hdid : Did i acts w) (hclaim : (row, .claim i delivery) ∈ acts)
    (hopen : ∀ act ∈ acts, act.2.closes = false) :
    ∃ b ∈ w.store.outbox.rows, b.id = row ∧ ∃ outcomes stage,
      Course d (b.stamp d.clusterID) (actsOn w.trace row) outcomes stage ∧
      stage.Shows outcomes b ∧
      ((∃ held, stage = .held i held ∧ (row, .claim i held) ∈ acts ∧
          ∀ act, (row, act) ∈ acts → act = .claim i held) ∨
        ∃ held envelope reply, stage = .answered i held reply ∧ (row, .claim i held) ∈ acts ∧
          (row, .send i envelope reply) ∈ acts) := by
  have hmine : ∀ act, act ∈ actsOn w.trace row → act.actor = i → (row, act) ∈ acts := by
    intro act hmem hactor
    obtain ⟨e, he, hact⟩ := mem_actsOn.mp hmem
    exact (hdid _).mpr ⟨e, he, (Event.act?_actor hact).symm.trans hactor, hact⟩
  have hdone : ∀ act, (row, act) ∈ acts → act ∈ actsOn w.trace row ∧ act.actor = i := by
    intro act hmem
    obtain ⟨e, he, hi, hact⟩ := (hdid _).mp hmem
    exact ⟨mem_actsOn.mpr ⟨e, he, hact⟩, (Event.act?_actor hact).trans hi⟩
  obtain ⟨b, hb, rfl⟩ := hw.acted row _ (hdone _ hclaim).1
  obtain ⟨outcomes, stage, hcourse, hshows⟩ := hw.course b hb
  refine ⟨b, hb, rfl, outcomes, stage, hcourse, hshows, ?_⟩
  rcases hcourse.waits ⟨_, hdone _ hclaim⟩ (fun act hmem hactor => hopen _ (hmine act hmem hactor))
    with ⟨held, rfl, hall⟩ | ⟨held, envelope, reply, rfl, hsend⟩
  · exact Or.inl ⟨held, rfl, hmine _ (hcourse.claimed (Or.inl rfl)) rfl, fun act hmem =>
      hall act (hdone act hmem).1 (hdone act hmem).2⟩
  · exact Or.inr ⟨held, envelope, reply, rfl, hmine _ (hcourse.claimed (Or.inr ⟨_, rfl⟩)) rfl,
      hmine _ hsend rfl⟩

/-- A delivery that was claimed and not sent is held. -/
theorem held (hw : Coursed d w) {delivery : Delivery}
    (hdid : Did i [(delivery.id, .claim i delivery)] w) :
    delivery ∈ w.store.outbox.rows ∧ delivery.status = .delivering ∧ ∃ outcomes,
      Course d (delivery.stamp d.clusterID) (actsOn w.trace delivery.id) outcomes
        (.held i delivery) := by
  obtain ⟨b, hb, -, outcomes, stage, hcourse, hshows, hstage⟩ :=
    hw.waits hdid (List.mem_singleton_self _) (by simp [Act.closes])
  rcases hstage with ⟨held, rfl, hclaim, -⟩ | ⟨held, envelope, reply, rfl, -, hsend⟩
  · obtain ⟨hstatus, rfl⟩ := hshows
    obtain rfl : b = delivery := by simpa using hclaim
    exact ⟨hb, hstatus, outcomes, hcourse⟩
  · simp at hsend

/-- A delivery that was sent has its answer. -/
theorem answered (hw : Coursed d w) {delivery : Delivery} {envelope : Envelope}
    {reply : Option DeliveryError} (hdid : Did i [(delivery.id, .claim i delivery),
      (delivery.id, .send i envelope reply)] w) :
    delivery ∈ w.store.outbox.rows ∧ delivery.status = .delivering ∧ ∃ outcomes,
      Course d (delivery.stamp d.clusterID) (actsOn w.trace delivery.id) outcomes
        (.answered i delivery reply) := by
  obtain ⟨b, hb, -, outcomes, stage, hcourse, hshows, hstage⟩ :=
    hw.waits hdid List.mem_cons_self (by simp [Act.closes])
  rcases hstage with ⟨held, rfl, -, hall⟩ | ⟨held, sent, answer, rfl, hclaim, hsend⟩
  · cases hall _ (List.mem_cons_of_mem _ (List.mem_singleton_self _))
  · obtain ⟨hstatus, rfl⟩ := hshows
    obtain rfl : b = delivery := by simpa using hclaim
    obtain ⟨-, rfl⟩ : sent = envelope ∧ answer = reply := by simpa using hsend
    exact ⟨hb, hstatus, outcomes, hcourse⟩

end Coursed

end RuleRaven
