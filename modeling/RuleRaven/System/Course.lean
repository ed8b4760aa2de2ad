import RuleRaven.Notify.Backoff
import RuleRaven.System.Fate

namespace RuleRaven

open Framework Notify

/-- What every envelope of a row has in common: its ID, type, source and data. -/
abbrev Stamp := String × EventType × String × RawMessage

def Notify.Envelope.stamp (envelope : Envelope) : Stamp :=
  (envelope.id, envelope.type, envelope.source, envelope.data)

def Delivery.stamp (clusterID : String) (b : Delivery) : Stamp :=
  (b.id, b.eventType, clusterSource clusterID, dataOf b)

theorem newEnvelope_stamp {clusterID : String} {b : Delivery} {now : Time} {envelope : Envelope}
    (h : newEnvelope b.id b.eventType clusterID now (dataOf b) = .ok envelope) :
    envelope.stamp = b.stamp clusterID := by
  unfold newEnvelope at h
  split_ifs at h
  cases h
  rfl

/-- What an execution does about a row. -/
inductive Act (ι : Type) where
  | claim (i : ι) (delivery : Delivery)
  | send (i : ι) (envelope : Envelope) (reply : Option DeliveryError)
  | complete (i : ι)
  | reschedule (i : ι) (request : RescheduleRequest)

/-- Where a row stands, between its attempts or within one. -/
inductive Stage (ι : Type) where
  | pending (last : Option RescheduleRequest)
  | held (i : ι) (delivery : Delivery)
  | answered (i : ι) (delivery : Delivery) (reply : Option DeliveryError)
  | delivered
  | failed

/-- What is asked for after the `n`-th attempt, if it may be retried. -/
structure Notify.Dispatcher.Spaces (d : Dispatcher) (n : Int) (request : RescheduleRequest) :
    Prop where
  failure : request.failure = .retryable
  delay : ∃ delay, request.nextAttemptAt = request.now.add delay ∧ d.backoff n ≤ delay ∧
    delay ≤ d.maxBackoff

variable {ι : Type}

/-- The retry policy: what may be done about a row, one act after the other, with the outcomes of
the attempts that are over. -/
inductive Course (d : Dispatcher) (stamp : Stamp) :
    List (Act ι) → List (Option DeliveryError) → Stage ι → Prop
  | start : Course d stamp [] [] (.pending none)
  | claim {acts outcomes last i} {delivery : Delivery}
      (h : Course d stamp acts outcomes (.pending last))
      (hstamp : delivery.stamp d.clusterID = stamp)
      (hattempts : delivery.attempts = (outcomes.length : Int) + 1) :
      Course d stamp (acts ++ [.claim i delivery]) outcomes (.held i delivery)
  | send {acts outcomes i delivery reply} {envelope : Envelope}
      (h : Course d stamp acts outcomes (.held i delivery)) (hstamp : envelope.stamp = stamp) :
      Course d stamp (acts ++ [.send i envelope reply]) outcomes (.answered i delivery reply)
  | complete {acts outcomes i delivery}
      (h : Course d stamp acts outcomes (.answered i delivery none)) :
      Course d stamp (acts ++ [.complete i]) (outcomes ++ [none]) .delivered
  -- Nothing could be sent: the destination is unknown or the envelope would not be valid.
  | refuse {acts outcomes i delivery} {request : RescheduleRequest} (kind : String)
      (h : Course d stamp acts outcomes (.held i delivery))
      (hfailure : request.failure = .permanent) :
      Course d stamp (acts ++ [.reschedule i request]) (outcomes ++ [some (refused kind)]) .failed
  | retry {acts outcomes i delivery err} {request : RescheduleRequest}
      (h : Course d stamp acts outcomes (.answered i delivery (some err)))
      (hretryable : err.retryable = true) (hleft : (outcomes.length + 1 : Int) < d.maxAttempts)
      (hspaces : d.Spaces (outcomes.length + 1) request) :
      Course d stamp (acts ++ [.reschedule i request]) (outcomes ++ [some err])
        (.pending (some request))
  | giveUp {acts outcomes i delivery err} {request : RescheduleRequest}
      (h : Course d stamp acts outcomes (.answered i delivery (some err)))
      (hfinal : err.retryable = false ∨ d.maxAttempts ≤ outcomes.length + 1)
      (hfailure : request.failure = .permanent) :
      Course d stamp (acts ++ [.reschedule i request]) (outcomes ++ [some err]) .failed

/-- An attempt that is over counts. -/
theorem length_concat (outcomes : List (Option DeliveryError)) (outcome : Option DeliveryError) :
    ((outcomes ++ [outcome]).length : Int) = outcomes.length + 1 := by
  rw [List.length_append]
  rfl

/-- Every attempt ended in an error that a later one may mend. -/
def Mendable (outcomes : List (Option DeliveryError)) : Prop :=
  ∀ outcome ∈ outcomes, ∃ err, outcome = some err ∧ err.retryable = true

theorem Mendable.concat {outcomes : List (Option DeliveryError)} (h : Mendable outcomes)
    {err : DeliveryError} (herr : err.retryable = true) : Mendable (outcomes ++ [some err]) := by
  intro outcome houtcome
  rcases List.mem_append.mp houtcome with hold | hnew
  · exact h outcome hold
  · exact ⟨err, List.mem_singleton.mp hnew, herr⟩

theorem Mendable.none_not_mem {outcomes : List (Option DeliveryError)} (h : Mendable outcomes) :
    none ∉ outcomes := by
  intro hnone
  obtain ⟨err, herr, -⟩ := h none hnone
  cases herr

/-- Where the outcomes of its attempts leave a row. -/
def Stage.Follows (d : Dispatcher) (outcomes : List (Option DeliveryError)) : Stage ι → Prop
  | .pending last => Mendable outcomes ∧ (outcomes.length : Int) < d.maxAttempts ∧
      (0 < outcomes.length → ∃ request, last = some request ∧ d.Spaces outcomes.length request)
  | .held _ delivery | .answered _ delivery _ => Mendable outcomes ∧
      (outcomes.length : Int) < d.maxAttempts ∧ delivery.attempts = outcomes.length + 1
  | .delivered => (outcomes.length : Int) ≤ d.maxAttempts ∧
      ∃ earlier, Mendable earlier ∧ outcomes = earlier ++ [none]
  | .failed => (outcomes.length : Int) ≤ d.maxAttempts ∧
      ∃ earlier err, Mendable earlier ∧ outcomes = earlier ++ [some err] ∧
        (err.retryable = false ∨ (outcomes.length : Int) = d.maxAttempts)

/-- How many answers of notifiers are not among the outcomes yet. -/
def Stage.answers : Stage ι → Nat
  | .answered _ _ _ => 1
  | _ => 0

/-- What was sent, and how it was answered. -/
def sends (acts : List (Act ι)) : List (Envelope × Option DeliveryError) :=
  acts.filterMap fun
    | .send _ envelope reply => some (envelope, reply)
    | _ => none

theorem sends_send (acts : List (Act ι)) (i : ι) (envelope : Envelope)
    (reply : Option DeliveryError) :
    sends (acts ++ [.send i envelope reply]) = sends acts ++ [(envelope, reply)] := by
  simp [sends]

namespace Act

/-- The execution whose act it is. -/
def actor : Act ι → ι
  | .claim i _ | .send i _ _ | .complete i | .reschedule i _ => i

/-- Whether it ends an attempt. -/
def closes : Act ι → Bool
  | .claim _ _ | .send _ _ _ => false
  | .complete _ | .reschedule _ _ => true

/-- Whether nothing is sent by it. -/
def silent : Act ι → Bool
  | .send _ _ _ => false
  | _ => true

end Act

theorem sends_silent (acts : List (Act ι)) {act : Act ι} (h : act.silent = true) :
    sends (acts ++ [act]) = sends acts := by
  cases act with
  | send i envelope reply => cases h
  | _ => simp [sends]

namespace Course

variable {d : Dispatcher} {stamp : Stamp} {acts : List (Act ι)}
  {outcomes : List (Option DeliveryError)} {stage : Stage ι}

theorem follows (h : Course d stamp acts outcomes stage) : stage.Follows d outcomes := by
  induction h with
  | start => exact ⟨by simp [Mendable], d.positive.2.2.1, fun h => absurd h (lt_irrefl _)⟩
  | claim h hstamp hattempts ih => exact ⟨ih.1, ih.2.1, hattempts⟩
  | send h hstamp ih => exact ih
  | @complete acts outcomes _ _ h ih =>
    have hleft := ih.2.1
    have hlength := length_concat outcomes none
    exact ⟨by omega, outcomes, ih.1, rfl⟩
  | @refuse acts outcomes _ _ request kind h hfailure ih =>
    have hleft := ih.2.1
    have hlength := length_concat outcomes (some (refused kind))
    exact ⟨by omega, outcomes, _, ih.1, rfl, Or.inl rfl⟩
  | @retry acts outcomes _ _ err request h hretryable hleft hspaces ih =>
    have hlength := length_concat outcomes (some err)
    exact ⟨ih.1.concat hretryable, hlength ▸ hleft, fun _ => ⟨request, rfl, hlength ▸ hspaces⟩⟩
  | @giveUp acts outcomes _ _ err request h hfinal hfailure ih =>
    have hleft := ih.2.1
    have hlength := length_concat outcomes (some err)
    exact ⟨by omega, outcomes, err, ih.1, rfl, hfinal.imp_right fun hmax => by omega⟩

/-- All envelopes are alike, but for the time. -/
theorem stamped (h : Course d stamp acts outcomes stage) :
    ∀ sent ∈ sends acts, sent.1.stamp = stamp := by
  induction h with
  | start => simp [sends]
  | @send acts outcomes i delivery reply envelope h hstamp ih =>
    intro sent hsent
    rw [sends_send] at hsent
    rcases List.mem_append.mp hsent with hold | hnew
    · exact ih sent hold
    · rw [List.mem_singleton.mp hnew]
      exact hstamp
  | claim _ _ _ ih | complete _ ih | refuse _ _ _ ih | retry _ _ _ _ ih | giveUp _ _ _ ih =>
    rw [sends_silent _ rfl]
    exact ih

/-- At most one envelope is sent in an attempt. -/
theorem sends_length (h : Course d stamp acts outcomes stage) :
    (sends acts).length ≤ outcomes.length + stage.answers := by
  induction h with
  | start => simp [sends]
  | send h hstamp ih =>
    rw [sends_send, List.length_append]
    exact Nat.add_le_add_right ih 1
  | claim _ _ _ ih =>
    rw [sends_silent _ rfl]
    exact ih
  | refuse _ _ _ ih =>
    rw [sends_silent _ rfl, List.length_append]
    exact Nat.le_succ_of_le ih
  | complete _ ih | retry _ _ _ _ ih | giveUp _ _ _ ih =>
    rw [sends_silent _ rfl, List.length_append]
    exact ih

theorem sends_le (h : Course d stamp acts outcomes stage) :
    ((sends acts).length : Int) ≤ d.maxAttempts := by
  have hlength := h.sends_length
  have hfollows := h.follows
  cases stage with
  | pending last | held i delivery | answered i delivery reply =>
    have hleft := hfollows.2.1
    simp only [Stage.answers] at hlength
    omega
  | delivered | failed =>
    have hmost := hfollows.1
    simp only [Stage.answers] at hlength
    omega

/-- A notifier took the row if and only if an attempt is over without an error, or is about to
be. -/
theorem sent_iff (h : Course d stamp acts outcomes stage) :
    (∃ envelope, (envelope, none) ∈ sends acts) ↔
      none ∈ outcomes ∨ ∃ i delivery, stage = .answered i delivery none := by
  induction h with
  | start => simp [sends]
  | @send acts outcomes i delivery reply envelope h hstamp ih =>
    simp only [sends_send, List.mem_append, List.mem_singleton, Prod.mk.injEq, exists_or, ih]
    simp [eq_comm]
  | claim _ _ _ ih | complete _ ih | refuse _ _ _ ih | retry _ _ _ _ ih | giveUp _ _ _ ih =>
    rw [sends_silent _ rfl, ih]
    simp

theorem rescheduled (h : Course d stamp acts outcomes stage) {request : RescheduleRequest}
    (hstage : stage = .pending (some request)) :
    ∃ earlier i, acts = earlier ++ [.reschedule i request] := by
  cases h with
  | retry h hretryable hleft hspaces =>
    cases hstage
    exact ⟨_, _, rfl⟩
  | _ => cases hstage

/-- The delivery that is held was claimed. -/
theorem claimed (h : Course d stamp acts outcomes stage) {i : ι} {delivery : Delivery}
    (hstage : stage = .held i delivery ∨ ∃ reply, stage = .answered i delivery reply) :
    .claim i delivery ∈ acts := by
  induction h with
  | claim h hstamp hattempts ih =>
    rcases hstage with hstage | ⟨reply, hstage⟩
    · cases hstage
      exact List.mem_append_right _ (List.mem_singleton_self _)
    · cases hstage
  | send h hstamp ih =>
    rcases hstage with hstage | ⟨reply, hstage⟩
    · cases hstage
    · cases hstage
      exact List.mem_append_left _ (ih (Or.inl rfl))
  | _ => rcases hstage with hstage | ⟨reply, hstage⟩ <;> cases hstage

/-- An execution that has acted on the row and not ended its attempt is the one that the row is
waiting for. -/
theorem waits (h : Course d stamp acts outcomes stage) {i : ι} (hacts : ∃ act ∈ acts, act.actor = i)
    (hopen : ∀ act ∈ acts, act.actor = i → act.closes = false) :
    (∃ delivery, stage = .held i delivery ∧
      ∀ act ∈ acts, act.actor = i → act = .claim i delivery) ∨
    ∃ delivery envelope reply, stage = .answered i delivery reply ∧
      .send i envelope reply ∈ acts := by
  -- An attempt that another execution has just ended leaves nothing that waits for this one.
  have hclosed : ∀ {acts : List (Act ι)} {act : Act ι}, act.closes = true →
      (∃ x ∈ acts ++ [act], x.actor = i) →
      (∀ x ∈ acts ++ [act], x.actor = i → x.closes = false) →
      act.actor ≠ i ∧ (∃ x ∈ acts, x.actor = i) ∧
        ∀ x ∈ acts, x.actor = i → x.closes = false := by
    rintro acts act hcloses ⟨x, hx, hactor⟩ hopen
    have hne : act.actor ≠ i := by
      intro heq
      have := hopen act (List.mem_append_right _ (List.mem_singleton_self _)) heq
      rw [hcloses] at this
      cases this
    refine ⟨hne, ⟨x, ?_, hactor⟩, fun y hy => hopen y (List.mem_append_left _ hy)⟩
    refine (List.mem_append.mp hx).resolve_right fun hnew => hne ?_
    rw [← List.mem_singleton.mp hnew]
    exact hactor
  induction h with
  | start =>
    obtain ⟨act, hact, -⟩ := hacts
    cases hact
  | @claim acts outcomes last j delivery h hstamp hattempts ih =>
    have hnone : ∀ act ∈ acts, act.actor ≠ i := by
      intro act hact hactor
      rcases ih ⟨act, hact, hactor⟩ fun x hx => hopen x (List.mem_append_left _ hx) with
        ⟨_, hstage, -⟩ | ⟨_, _, _, hstage, -⟩ <;> cases hstage
    obtain ⟨act, hact, hactor⟩ := hacts
    have hnew := List.mem_singleton.mp ((List.mem_append.mp hact).resolve_left fun hold =>
      hnone act hold hactor)
    subst hnew
    obtain rfl : j = i := hactor
    refine Or.inl ⟨delivery, rfl, fun x hx hxi => ?_⟩
    exact (List.mem_append.mp hx).elim (fun hold => absurd hxi (hnone x hold)) List.mem_singleton.mp
  | @send acts outcomes j delivery reply envelope h hstamp ih =>
    obtain rfl : j = i := by
      obtain ⟨act, hact, hactor⟩ := hacts
      rcases List.mem_append.mp hact with hold | hnew
      · rcases ih ⟨act, hold, hactor⟩ fun x hx => hopen x (List.mem_append_left _ hx) with
          ⟨_, hstage, -⟩ | ⟨_, _, _, hstage, -⟩ <;> cases hstage
        rfl
      · rw [List.mem_singleton.mp hnew] at hactor
        exact hactor
    exact Or.inr ⟨delivery, envelope, reply, rfl,
      List.mem_append_right _ (List.mem_singleton_self _)⟩
  | complete h ih | refuse kind h hfailure ih | retry h hretryable hleft hspaces ih
  | giveUp h hfinal hfailure ih =>
    obtain ⟨hne, hacts, hopen⟩ := hclosed rfl hacts hopen
    rcases ih hacts hopen with ⟨_, hstage, -⟩ | ⟨_, _, _, hstage, -⟩ <;> cases hstage
    exact absurd rfl hne

end Course

end RuleRaven
