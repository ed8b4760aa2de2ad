import RuleRaven.Controller.Calls
import RuleRaven.System.Schedule

namespace RuleRaven

open Framework Kube Controller Notify

variable {ι : Type}

/-- A claim that took effect: which execution made it on which row, in which worker's name, and
until when. -/
structure Claim (ι : Type) where
  holder : ι
  row : String
  owner : String
  leaseUntil : Time

namespace Event

/-- The claim that an event is, unless it failed or found nothing. -/
def claim? (e : Event ι) : Option (Claim ι) :=
  match e.op with
  | .store (.outboxClaim request) =>
    if e.after = e.before then none
    else (e.before.claimable request.now).map fun d =>
      ⟨e.worker, d.id, request.workerID, bsonTime (request.now.add request.leaseDuration)⟩
  | _ => none

/-- The row that an event is to finalize. -/
def finalizes (e : Event ι) : Option String :=
  match e.op with
  | .store (.outboxComplete request) => some request.id
  | .store (.outboxReschedule request) => some request.id
  | _ => none

theorem claim?_holder {e : Event ι} {c : Claim ι} (h : e.claim? = some c) :
    c.holder = e.worker := by
  unfold claim? at h
  split at h
  · split_ifs at h
    obtain ⟨d, -, rfl⟩ := Option.map_eq_some_iff.mp h
    rfl
  · cases h

theorem claim?_unchanged {e : Event ι} (h : e.after = e.before) : e.claim? = none := by
  unfold claim?
  split
  · rw [if_pos h]
  · rfl

end Event

/-- A claim that finds a row changes it. -/
theorem claim_ne {s : Store} {request : ClaimRequest} {d : Delivery}
    (hd : s.claimable request.now = some d) : (s.claim request).2 ≠ s := by
  rw [Store.claim_eq_some hd]
  refine Store.modifyOutbox_ne (Store.claimable_eq_some hd).1 fun heq => ?_
  have hattempts : d.attempts + 1 = d.attempts := congrArg (fun d => d.attempts) heq
  omega

/-- A claim that is done shows in the trace. -/
theorem claim?_claim {s : Store} {request : ClaimRequest} {d : Delivery}
    (hd : s.claimable request.now = some d) (i : ι)
    (reply : (Op.store (.outboxClaim request)).Reply) (clock : Time) :
    (⟨i, .store (.outboxClaim request), reply, clock, s, (s.claim request).2⟩ :
      Event ι).claim? = some ⟨i, d.id, request.workerID,
        bsonTime (request.now.add request.leaseDuration)⟩ := by
  simp only [Event.claim?, if_neg (claim_ne hd), hd, Option.map_some]

/-- The claims made on a row, in their order. -/
def claimsOn (trace : List (Event ι)) (row : String) : List (Claim ι) :=
  (trace.filterMap Event.claim?).filter fun c => c.row == row

section Claims

variable {trace : List (Event ι)} {e : Event ι} {c : Claim ι} {row : String}

theorem row_of_mem_claimsOn (h : c ∈ claimsOn trace row) : c.row = row := by
  simpa using (List.mem_filter.mp h).2

theorem event_of_mem_claimsOn (h : c ∈ claimsOn trace row) : ∃ e ∈ trace, e.worker = c.holder := by
  obtain ⟨e, he, hclaim⟩ := List.mem_filterMap.mp (List.mem_filter.mp h).1
  exact ⟨e, he, (Event.claim?_holder hclaim).symm⟩

theorem claimsOn_append (trace others : List (Event ι)) (row : String) :
    claimsOn (trace ++ others) row = claimsOn trace row ++ claimsOn others row := by
  simp [claimsOn, List.filterMap_append, List.filter_append]

theorem claimsOn_quiet (h : e.claim? = none) :
    claimsOn (trace ++ [e]) row = claimsOn trace row := by
  rw [claimsOn_append]
  simp [claimsOn, h]

theorem claimsOn_claim (h : e.claim? = some c) :
    claimsOn (trace ++ [e]) row = claimsOn trace row ++ if c.row = row then [c] else [] := by
  rw [claimsOn_append]
  by_cases hrow : c.row = row <;> simp [claimsOn, h, hrow]

theorem claimsOn_same (h : e.claim? = some c) (hrow : c.row = row) :
    claimsOn (trace ++ [e]) row = claimsOn trace row ++ [c] := by
  rw [claimsOn_claim h, if_pos hrow]

theorem claimsOn_other (h : e.claim? = some c) (hrow : c.row ≠ row) :
    claimsOn (trace ++ [e]) row = claimsOn trace row := by
  rw [claimsOn_claim h, if_neg hrow, List.append_nil]

end Claims

/-- The execution has a claim on the row that was not the last one. -/
def Superseded (past : List (Event ι)) (i : ι) (row : String) : Prop :=
  ∃ c ∈ (claimsOn past row).dropLast, c.holder = i

/-- Completions and reschedulings of superseded executions change nothing. -/
def Fenced (w : World ι) : Prop :=
  ∀ past e future row, w.trace = past ++ e :: future → e.finalizes = some row →
    Superseded past e.worker row → e.after = e.before

section Property

variable [DecidableEq ι]

/-- The holder itself has changed the row by a completion or a rescheduling. -/
def World.finalized (w : World ι) (c : Claim ι) : Bool :=
  w.trace.any fun e => e.worker == c.holder && e.finalizes == some c.row && e.after != e.before

/-- The holder has issued its completion or rescheduling, or is over without one. -/
def World.settled (w : World ι) (c : Claim ι) : Bool :=
  w.gone.contains c.holder ||
    w.trace.any fun e => e.worker == c.holder && e.finalizes == some c.row

/-- Held by its execution under a lease that has not run out. -/
def World.live (w : World ι) (c : Claim ι) : Prop :=
  w.clock < c.leaseUntil ∧ w.finalized c = false

/-- No two executions hold live claims on one row. -/
def Exclusive (w : World ι) : Prop :=
  ∀ row, ∀ c ∈ claimsOn w.trace row, ∀ c' ∈ claimsOn w.trace row, w.live c → w.live c' →
    c.holder = c'.holder

/-- Whoever claims a row finds no claim on it in the same worker's name whose execution could
still complete or reschedule it. -/
def claimsUnshared (_ : ι) : Op → World ι → Bool
  | .store (.outboxClaim request), w =>
    (w.store.claimable request.now).all fun d => (claimsOn w.trace d.id).all fun c =>
      c.owner != request.workerID || w.settled c
  | _, _ => true

end Property

theorem snoc_eq_append_cons {α : Type} {l past future : List α} {a b : α}
    (h : l ++ [a] = past ++ b :: future) :
    (past = l ∧ b = a) ∨ ∃ rest, l = past ++ b :: rest := by
  rcases List.eq_nil_or_concat future with rfl | ⟨rest, last, rfl⟩
  · obtain ⟨rfl, hab⟩ := List.append_inj' h rfl
    exact Or.inl ⟨rfl, (List.cons.inj hab).1.symm⟩
  · rw [List.concat_eq_append, ← List.cons_append, ← List.append_assoc] at h
    exact Or.inr ⟨rest, (List.append_inj' h rfl).1⟩

theorem Fenced.extend {w : World ι} (hw : Fenced w) {i : ι} {op : Op} {reply : op.Reply}
    {s' : Store}
    (h : ∀ row, (⟨i, op, reply, w.clock, w.store, s'⟩ : Event ι).finalizes = some row →
      Superseded w.trace i row → s' = w.store) : Fenced (w.extend i op reply s') := by
  intro past e future row htrace hrow hsuper
  rcases snoc_eq_append_cons htrace with ⟨rfl, rfl⟩ | ⟨rest, hrest⟩
  · exact h row hrow hsuper
  · exact hw past e rest row hrest hrow hsuper

section Invariant

variable [DecidableEq ι]

/-- What a row shows of the last claim on it: its lease, unless the holder has finalized it. -/
def World.Shows (w : World ι) (d : Delivery) : Option (Claim ι) → Prop
  | none => d.status ≠ .delivering
  | some c => (d.status ≠ .delivering ∧ w.finalized c = true) ∨
      (d.status = .delivering ∧ d.leaseOwner = c.owner ∧ d.leaseUntil = some c.leaseUntil)

/-- The outbox and the claims made on it. -/
structure Leased (w : World ι) : Prop where
  fenced : Fenced w
  claimed : ∀ row, claimsOn w.trace row ≠ [] → ∃ d ∈ w.store.outbox.rows, d.id = row
  shown : ∀ d ∈ w.store.outbox.rows, w.Shows d (claimsOn w.trace d.id).getLast?
  expired : ∀ row, ∀ c ∈ (claimsOn w.trace row).dropLast,
    w.finalized c = true ∨ c.leaseUntil ≤ w.clock
  unshared : ∀ row, ∀ c ∈ (claimsOn w.trace row).dropLast,
    ∀ last, (claimsOn w.trace row).getLast? = some last → c.owner = last.owner →
      w.settled c = true

variable {w : World ι} {i : ι} {op : Op} {reply : op.Reply} {s' : Store} {c : Claim ι}

theorem finalized_extend (h : w.finalized c = true) :
    (w.extend i op reply s').finalized c = true := by
  unfold World.finalized at h ⊢
  rw [World.extend, List.any_append, h, Bool.true_or]

theorem settled_extend (h : w.settled c = true) :
    (w.extend i op reply s').settled c = true := by
  unfold World.settled at h ⊢
  rw [World.extend, List.any_append, ← Bool.or_assoc, h, Bool.true_or]

theorem World.Shows.extend {d : Delivery} {last : Option (Claim ι)} (h : w.Shows d last) :
    (w.extend i op reply s').Shows d last := by
  cases last with
  | none => exact h
  | some c => exact h.imp_left fun hfinal => ⟨hfinal.1, finalized_extend hfinal.2⟩

/-- A call that claims nothing and changes no row that is there. -/
theorem Leased.quiet (hw : Leased w)
    (hclaim : (⟨i, op, reply, w.clock, w.store, s'⟩ : Event ι).claim? = none)
    (hfinal : ∀ row, (⟨i, op, reply, w.clock, w.store, s'⟩ : Event ι).finalizes = some row →
      s' = w.store)
    (hgrow : w.store.Grows s')
    (hout : ∀ d ∈ s'.outbox.rows, d ∈ w.store.outbox.rows ∨
      (d.status ≠ .delivering ∧ ∀ b ∈ w.store.outbox.rows, b.id ≠ d.id)) :
    Leased (w.extend i op reply s') := by
  have hclaims : ∀ row, claimsOn (w.extend i op reply s').trace row = claimsOn w.trace row :=
    fun row => claimsOn_quiet hclaim
  refine ⟨hw.fenced.extend fun row hrow _ => hfinal row hrow, ?_, ?_, ?_, ?_⟩
  · intro row hne
    rw [hclaims] at hne
    exact hgrow.delivery (hw.claimed row hne)
  · intro d hd
    rw [hclaims]
    rcases hout d hd with hold | ⟨hstatus, hfresh⟩
    · exact (hw.shown d hold).extend
    · have hnone : claimsOn w.trace d.id = [] := by
        by_contra hne
        obtain ⟨b, hb, hid⟩ := hw.claimed d.id hne
        exact hfresh b hb hid
      rw [hnone]
      exact hstatus
  · intro row c hc
    rw [hclaims] at hc
    exact (hw.expired row c hc).imp_left finalized_extend
  · intro row c hc last hlast howner
    rw [hclaims] at hc hlast
    exact settled_extend (hw.unshared row c hc last hlast howner)

theorem Leased.unchanged (hw : Leased w) : Leased (w.extend i op reply w.store) :=
  hw.quiet (Event.claim?_unchanged rfl) (fun _ _ => rfl) (Store.Grows.refl _) fun _ hd => Or.inl hd

theorem leased_exclusive (hw : Leased w) : Exclusive w := by
  intro row c hc c' hc' hlive hlive'
  -- Of two different claims on a row, one is not the last, and its lease has run out.
  have hlast : ∀ x ∈ claimsOn w.trace row, w.live x →
      (claimsOn w.trace row).getLast? = some x := by
    intro x hx hxlive
    have hne : claimsOn w.trace row ≠ [] := List.ne_nil_of_mem hx
    rw [← List.dropLast_append_getLast hne, List.mem_append, List.mem_singleton] at hx
    rcases hx with hx | hx
    · rcases hw.expired row x hx with hfinal | hover
      · rw [hxlive.2] at hfinal
        cases hfinal
      · exact absurd hxlive.1 (not_lt.mpr hover)
    · rw [hx, List.getLast?_eq_some_getLast hne]
  have heq := (hlast c hc hlive).symm.trans (hlast c' hc' hlive')
  rw [Option.some.inj heq]

theorem bsonTime_le (t : Time) : bsonTime t ≤ t := by
  exact Int.sub_le_self t (Int.emod_nonneg t (by decide))

/-- A row that can be claimed shows that the last claim on it is over. -/
theorem World.Shows.over {d : Delivery} {now : Time} (hshown : w.Shows d (some c))
    (heligible : d.eligible now = true) : w.finalized c = true ∨ c.leaseUntil ≤ now := by
  rcases hshown with ⟨-, hfinal⟩ | ⟨hstatus, -, huntil⟩
  · exact Or.inl hfinal
  · rw [Delivery.eligible, Delivery.eligibleAt, hstatus, huntil] at heligible
    have hle : c.leaseUntil ≤ bsonTime now := by simpa using heligible
    exact Or.inr (hle.trans (bsonTime_le now))

theorem Leased.claim (hw : Leased w) {request : ClaimRequest}
    {reply : (Op.store (.outboxClaim request)).Reply} {d : Delivery}
    (hd : w.store.claimable request.now = some d) (hnow : request.now ≤ w.clock)
    (hguard : claimsUnshared i (.store (.outboxClaim request)) w = true) :
    Leased (w.extend i (.store (.outboxClaim request)) reply (w.store.claim request).2) := by
  obtain ⟨hmem, heligible⟩ := Store.claimable_eq_some hd
  have hstore : (w.store.claim request).2 =
      { w.store with outbox := w.store.outbox.modify d.id (claimChange request) } := by
    rw [Store.claim_eq_some hd]
  obtain ⟨c, hclaim, hrow, howner, huntil⟩ : ∃ c : Claim ι,
      (⟨i, .store (.outboxClaim request), reply, w.clock, w.store,
        (w.store.claim request).2⟩ : Event ι).claim? = some c ∧ c.row = d.id ∧
      c.owner = request.workerID ∧
      c.leaseUntil = bsonTime (request.now.add request.leaseDuration) :=
    ⟨_, claim?_claim hd i reply w.clock, rfl, rfl, rfl⟩
  have hsame : ∀ row, row ≠ d.id → claimsOn (w.extend i (.store (.outboxClaim request)) reply
      (w.store.claim request).2).trace row = claimsOn w.trace row := by
    intro row hother
    exact claimsOn_other hclaim (hrow.trans_ne hother.symm)
  have hnew : claimsOn (w.extend i (.store (.outboxClaim request)) reply
      (w.store.claim request).2).trace d.id = claimsOn w.trace d.id ++ [c] :=
    claimsOn_same hclaim hrow
  have hgrow := Store.grows_claim w.store request
  refine ⟨hw.fenced.extend (fun _ h => by cases h), ?_, ?_, ?_, ?_⟩
  · intro row hclaimed
    apply hgrow.delivery
    by_cases hother : row = d.id
    · exact ⟨d, hmem, hother.symm⟩
    · rw [hsame row hother] at hclaimed
      exact hw.claimed row hclaimed
  · intro b hb
    change b ∈ (w.store.claim request).2.outbox.rows at hb
    rw [hstore] at hb
    rcases Table.mem_modify.mp hb with ⟨hb, hother⟩ | ⟨b, -, hid, rfl⟩
    · rw [hsame b.id hother]
      exact (hw.shown b hb).extend
    · have hrowid : ((claimChange request).apply b).id = d.id := hid
      rw [hrowid, hnew, List.getLast?_concat]
      exact Or.inr ⟨rfl, howner.symm, congrArg some huntil.symm⟩
  · intro row x hx
    by_cases hother : row = d.id
    · subst hother
      rw [hnew, List.dropLast_concat] at hx
      have hne : claimsOn w.trace d.id ≠ [] := List.ne_nil_of_mem hx
      rw [← List.dropLast_append_getLast hne, List.mem_append, List.mem_singleton] at hx
      rcases hx with hx | rfl
      · exact (hw.expired d.id x hx).imp_left finalized_extend
      · have hshown := hw.shown d hmem
        rw [List.getLast?_eq_some_getLast hne] at hshown
        exact (hshown.over heligible).imp finalized_extend fun hle => hle.trans hnow
    · rw [hsame row hother] at hx
      exact (hw.expired row x hx).imp_left finalized_extend
  · intro row x hx last hlast hshared
    by_cases hother : row = d.id
    · subst hother
      rw [hnew, List.dropLast_concat] at hx
      rw [hnew, List.getLast?_concat, Option.some.injEq] at hlast
      subst hlast
      simp only [claimsUnshared, hd, Option.all_some, List.all_eq_true, Bool.or_eq_true,
        bne_iff_ne] at hguard
      exact settled_extend ((hguard x hx).resolve_left fun h => h (hshared.trans howner))
    · rw [hsame row hother] at hx hlast
      exact settled_extend (hw.unshared row x hx last hlast hshared)

end Invariant

section Knowledge

/-- The execution is at work and has issued neither a completion nor a rescheduling. -/
def Unfinished (i : ι) (w : World ι) : Prop :=
  (∀ e ∈ w.trace, e.worker = i → e.finalizes = none) ∧ i ∉ w.gone

/-- The execution has made no claim yet. -/
def Idle (i : ι) (w : World ι) : Prop :=
  Unfinished i w ∧ ∀ row, ∀ c ∈ claimsOn w.trace row, c.holder ≠ i

/-- The execution has claimed the row, and all its claims are in this worker's name. -/
def Holding (i : ι) (owner row : String) (w : World ι) : Prop :=
  Unfinished i w ∧ (∃ c ∈ claimsOn w.trace row, c.holder = i) ∧
    ∀ row, ∀ c ∈ claimsOn w.trace row, c.holder = i → c.owner = owner

variable {i : ι} {w : World ι} {owner row : String}

theorem idle_of_unused (h : w.Unused i) : Idle i w := by
  refine ⟨⟨fun e he hi => absurd hi (h.1 e he), h.2⟩, fun row c hc hi => ?_⟩
  obtain ⟨e, he, hworker⟩ := event_of_mem_claimsOn hc
  exact h.1 e he (hworker.trans hi)

theorem stable_unfinished (i : ι) : Stable i (Unfinished i) := by
  rintro w w' hr ⟨hevents, hgone⟩
  obtain ⟨others, htrace, hothers⟩ := hr.trace
  refine ⟨fun e he hi => ?_, fun hmem => hgone (hr.gone hmem)⟩
  rw [htrace, List.mem_append] at he
  exact he.elim (fun he => hevents e he hi) fun he => absurd hi (hothers e he)

/-- The others make no claims as this execution. -/
theorem mem_claimsOn_of_rely {w' : World ι} (hr : World.Rely i w w') {c : Claim ι}
    (hc : c ∈ claimsOn w'.trace row) (hi : c.holder = i) : c ∈ claimsOn w.trace row := by
  obtain ⟨others, htrace, hothers⟩ := hr.trace
  rw [htrace, claimsOn_append, List.mem_append] at hc
  refine hc.resolve_right fun hc => ?_
  obtain ⟨e, he, hworker⟩ := event_of_mem_claimsOn hc
  exact hothers e he (hworker.trans hi)

theorem stable_idle (i : ι) : Stable i (Idle i) := fun w w' hr h =>
  ⟨stable_unfinished i w w' hr h.1, fun row c hc hi =>
    h.2 row c (mem_claimsOn_of_rely hr hc hi) hi⟩

theorem stable_holding (i : ι) (owner row : String) : Stable i (Holding i owner row) := by
  rintro w w' hr ⟨hunfinished, ⟨c, hc, hi⟩, howner⟩
  refine ⟨stable_unfinished i w w' hr hunfinished, ⟨c, ?_, hi⟩, fun row x hx hxi =>
    howner row x (mem_claimsOn_of_rely hr hx hxi) hxi⟩
  obtain ⟨others, htrace, -⟩ := hr.trace
  rw [htrace, claimsOn_append]
  exact List.mem_append_left _ hc

section Extend

variable {op : Op} {reply : op.Reply} {s' : Store}

theorem Unfinished.extend (h : Unfinished i w)
    (hfinal : (⟨i, op, reply, w.clock, w.store, s'⟩ : Event ι).finalizes = none) :
    Unfinished i (w.extend i op reply s') := by
  refine ⟨fun e he hi => ?_, h.2⟩
  rcases List.mem_append.mp he with he | he
  · exact h.1 e he hi
  · rw [List.mem_singleton.mp he]
    exact hfinal

theorem Idle.extend (h : Idle i w)
    (hfinal : (⟨i, op, reply, w.clock, w.store, s'⟩ : Event ι).finalizes = none)
    (hclaim : (⟨i, op, reply, w.clock, w.store, s'⟩ : Event ι).claim? = none) :
    Idle i (w.extend i op reply s') := by
  refine ⟨h.1.extend hfinal, fun row c hc => ?_⟩
  rw [World.extend, claimsOn_quiet hclaim] at hc
  exact h.2 row c hc

theorem Holding.extend (h : Holding i owner row w)
    (hfinal : (⟨i, op, reply, w.clock, w.store, s'⟩ : Event ι).finalizes = none)
    (hclaim : (⟨i, op, reply, w.clock, w.store, s'⟩ : Event ι).claim? = none) :
    Holding i owner row (w.extend i op reply s') := by
  refine ⟨h.1.extend hfinal, ?_, fun row c hc => ?_⟩
  · rw [World.extend, claimsOn_quiet hclaim]
    exact h.2.1
  · rw [World.extend, claimsOn_quiet hclaim] at hc
    exact h.2.2 row c hc

/-- The claim that an idle execution makes is the one it holds. -/
theorem Idle.claim (h : Idle i w) {c : Claim ι}
    (hclaim : (⟨i, op, reply, w.clock, w.store, s'⟩ : Event ι).claim? = some c)
    (hfinal : (⟨i, op, reply, w.clock, w.store, s'⟩ : Event ι).finalizes = none) :
    Holding i c.owner c.row (w.extend i op reply s') := by
  refine ⟨h.1.extend hfinal, ⟨c, ?_, Event.claim?_holder hclaim⟩, fun row x hx hi => ?_⟩
  · rw [World.extend, claimsOn_same hclaim rfl]
    exact List.mem_append_right _ (List.mem_singleton_self c)
  · rw [World.extend, claimsOn_claim hclaim, List.mem_append] at hx
    rcases hx with hx | hx
    · exact absurd hi (h.2 row x hx)
    · split_ifs at hx
      · rw [List.mem_singleton.mp hx]
      · cases hx

end Extend

end Knowledge

section Finalize

variable [DecidableEq ι] {w : World ι} {i : ι} {owner row : String}

theorem Unfinished.not_settled (h : Unfinished i w) {c : Claim ι} (hi : c.holder = i) :
    w.settled c = false := by
  simp only [World.settled, hi, Bool.or_eq_false_iff, List.any_eq_false, Bool.and_eq_true,
    beq_iff_eq, List.contains_eq_mem, decide_eq_false_iff_not]
  refine ⟨h.2, fun e he hall => ?_⟩
  rw [h.1 e he hall.1] at hall
  cases hall.2

/-- Where the row shows the name of an execution that holds a claim on it, that claim is the
last one. -/
theorem Leased.current (hw : Leased w) (h : Holding i owner row w) {b : Delivery}
    (hb : b ∈ w.store.outbox.rows) (hheld : b.heldBy row owner = true) :
    ¬Superseded w.trace i row ∧
      ∃ c, (claimsOn w.trace row).getLast? = some c ∧ c.holder = i := by
  simp only [Delivery.heldBy, Bool.and_eq_true, beq_iff_eq] at hheld
  obtain ⟨⟨hid, hstatus⟩, howner⟩ := hheld
  obtain ⟨hunfinished, ⟨c, hc, hi⟩, hnames⟩ := h
  have hne : claimsOn w.trace row ≠ [] := List.ne_nil_of_mem hc
  have hshown := hw.shown b hb
  rw [hid, List.getLast?_eq_some_getLast hne] at hshown
  have hlast : owner = ((claimsOn w.trace row).getLast hne).owner := by
    rcases hshown with ⟨hnot, -⟩ | ⟨-, hname, -⟩
    · exact absurd hstatus hnot
    · exact howner.symm.trans hname
  have hcurrent : ¬Superseded w.trace i row := by
    rintro ⟨x, hx, hxi⟩
    have hname := hnames row x (List.mem_of_mem_dropLast hx) hxi
    have hsettled := hw.unshared row x hx _ (List.getLast?_eq_some_getLast hne)
      (hname.trans hlast)
    rw [hunfinished.not_settled hxi] at hsettled
    cases hsettled
  refine ⟨hcurrent, c, ?_, hi⟩
  rw [← List.dropLast_append_getLast hne, List.mem_append, List.mem_singleton] at hc
  rcases hc with hc | rfl
  · exact absurd ⟨c, hc, hi⟩ hcurrent
  · exact List.getLast?_eq_some_getLast hne

theorem Leased.finalize (hw : Leased w) (h : Holding i owner row w) {op : Op} {reply : op.Reply}
    {change : Table.Change (fun d : Delivery => d.id) Delivery.eventKey}
    (hchange : ∀ b, (change.apply b).status ≠ .delivering)
    (hclaim : ∀ s', (⟨i, op, reply, w.clock, w.store, s'⟩ : Event ι).claim? = none)
    (hfinal : ∀ s', (⟨i, op, reply, w.clock, w.store, s'⟩ : Event ι).finalizes = some row) :
    Leased (w.extend i op reply (w.store.finalize row owner change).2) := by
  unfold Store.finalize
  split_ifs with hany
  swap
  · exact hw.unchanged
  obtain ⟨b, hb, hheld⟩ := List.any_eq_true.mp hany
  obtain ⟨hcurrent, c, hlast, hi⟩ := hw.current h hb hheld
  simp only [Delivery.heldBy, Bool.and_eq_true, beq_iff_eq] at hheld
  obtain ⟨⟨rfl, hstatus⟩, -⟩ := hheld
  have hgrow := Store.grows_modifyOutbox w.store b.id change
  have hne : { w.store with outbox := w.store.outbox.modify b.id change } ≠ w.store := by
    refine Store.modifyOutbox_ne hb fun heq => hchange b ?_
    rw [heq, hstatus]
  have hclaims : ∀ row, claimsOn (w.extend i op reply
      { w.store with outbox := w.store.outbox.modify b.id change }).trace row =
        claimsOn w.trace row := fun row => claimsOn_quiet (hclaim _)
  have hrow : c.row = b.id := row_of_mem_claimsOn (List.mem_of_getLast? hlast)
  have hdone : (w.extend i op reply
      { w.store with outbox := w.store.outbox.modify b.id change }).finalized c = true := by
    unfold World.finalized
    rw [World.extend, List.any_append, List.any_cons]
    simp [hfinal, hi, hrow, hne]
  refine ⟨hw.fenced.extend fun row hrow hsuper => ?_, ?_, ?_, ?_, ?_⟩
  · rw [hfinal, Option.some.injEq] at hrow
    exact absurd (hrow ▸ hsuper) hcurrent
  · intro row hclaimed
    rw [hclaims] at hclaimed
    exact hgrow.delivery (hw.claimed row hclaimed)
  · intro d hd
    rw [hclaims]
    rcases Table.mem_modify.mp hd with ⟨hd, -⟩ | ⟨d, -, hid, rfl⟩
    · exact (hw.shown d hd).extend
    · have hid' : (change.apply d).id = b.id := (change.id_apply d).trans hid
      rw [hid', hlast]
      exact Or.inl ⟨hchange d, hdone⟩
  · intro row x hx
    rw [hclaims] at hx
    exact (hw.expired row x hx).imp_left finalized_extend
  · intro row x hx last hlast howner
    rw [hclaims] at hx hlast
    exact settled_extend (hw.unshared row x hx last hlast howner)

end Finalize

end RuleRaven
