import RuleRaven.System.Manager

namespace RuleRaven.Kube

open Framework Framework.Tracked Controller Notify

variable {Q : Queue ResourceKey} {H : Hasher} {reconcile : ReconcileFunc} {d : Dispatcher}
  {known : ResourceKey → Prop} {workers : Nat} {s s' : Site Q} {φ φ' : Phase}

theorem toInt_pos {delay : Duration} (h : 0 < delay) : 0 < delay.toInt := by
  simpa using Int64.lt_iff_toInt_lt.mp h

/-- A turn starts work on a key, ends it, or goes on with the same key. -/
theorem Turns.queue (h : Turns reconcile s φ s' φ') :
    (∃ key, φ = .idle ∧ φ' = .working key (reconcile key) ∧
      s.queue.get = some (some key, s'.queue)) ∨
    (∃ key result, φ = .closing key result ∧ φ' = .looping ∧ s'.queue = s.queue.done key) ∨
    (φ'.key = φ.key ∧ Quiet s.queue s'.queue ∧ Relation.ReflGen Operates s.queue s'.queue) := by
  cases h with
  | got h => exact Or.inl ⟨_, rfl, rfl, h⟩
  | shut h => exact Or.inr (Or.inr ⟨rfl, quiet_get h, .single (.get h)⟩)
  | retried key err =>
    exact Or.inr (Or.inr ⟨rfl, quiet_addRateLimited _ _, .single (.addRateLimited _ _)⟩)
  | settled key h | succeeded key h =>
    exact Or.inr (Or.inr ⟨rfl, quiet_forget _ _, .single (.forget _ _)⟩)
  | delayed key hdelay =>
    have hpos := toInt_pos hdelay
    exact Or.inr (Or.inr ⟨rfl, quiet_addAfter _ _ hpos, .single (.addAfter _ _ hpos)⟩)
  | closed key result => exact Or.inr (Or.inl ⟨key, result, rfl, rfl, rfl⟩)
  | _ => exact Or.inr (Or.inr ⟨rfl, .refl _, .refl⟩)

/-- Everything else that the workers share stays as it is. -/
theorem Turns.site (h : Turns reconcile s φ s' φ') :
    s'.stage = s.stage ∧ s'.cancelled = s.cancelled ∧ s'.dispatches = s.dispatches := by
  cases h with
  | _ => exact ⟨rfl, rfl, rfl⟩

/-- A worker that finishes only what it got does not shut the queue down. -/
theorem Turns.shuttingDown (h : Turns reconcile s φ s' φ')
    (hheld : ∀ key, φ.key = some key → key ∈ s.queue.view.processing) :
    s'.queue.view.shuttingDown = s.queue.view.shuttingDown := by
  cases h with
  | got h => rw [(get_eq_some h).2.2]
  | shut h => rw [(get_eq_none h).1]
  | retried key err => rw [view_addRateLimited, QueueView.putOff_shuttingDown]
  | settled key h | succeeded key h => rw [view_forget]
  | delayed key hdelay => rw [view_addAfter _ _ (toInt_pos hdelay), QueueView.putOff_shuttingDown]
  | closed key result => rw [view_done (hheld key rfl)]
  | _ => rfl

/-- A worker ends where the queue is empty and shut down. -/
theorem Turns.ended (h : Turns reconcile s φ s' φ') (hended : φ'.ended = true) :
    s'.queue.view = s.queue.view ∧ (φ.ended = true ∨
      s.queue.view.queue = [] ∧ s.queue.view.shuttingDown = true) := by
  cases h with
  | shut h => exact ⟨(get_eq_none h).1, Or.inr (get_eq_none h).2.2⟩
  | left => exact ⟨rfl, Or.inl rfl⟩
  | _ => cases hended

/-- What goes on beside the workers adds keys, or shuts the queue down. -/
theorem Passes.queue (h : Passes H d known s s') :
    Quiet s.queue s'.queue ∧ Relation.ReflGen Operates s.queue s'.queue ∧
      (s.queue.view.shuttingDown = true →
        s'.queue.view.queue = s.queue.view.queue ∧ s'.queue.view.shuttingDown = true) := by
  cases h with
  | callback h hknown | sweep hknown =>
    refine ⟨quiet_add _ _, .single (.add _ _), fun hclosed => ?_⟩
    rw [view_add, QueueView.mark_closed hclosed]
    exact ⟨rfl, hclosed⟩
  | due h =>
    refine ⟨quiet_fire h, .single (.fire h), fun hclosed => ?_⟩
    rw [view_fire h, QueueView.mark_closed hclosed]
    exact ⟨rfl, hclosed⟩
  | unsynced h | shut h =>
    refine ⟨quiet_shutDown _, .single (.shutDown _), fun _ => ?_⟩
    rw [view_shutDown]
    exact ⟨rfl, rfl⟩
  | _ => exact ⟨.refl _, .refl, fun hclosed => ⟨rfl, hclosed⟩⟩

/-- What holds of the workers and the queue at each stage of `Run`. -/
def Site.Fits (workers : Nat) (phases : List Phase) (s : Site Q) : Prop :=
  match s.stage with
  | .syncing | .synced | .announced => phases = [] ∧ s.queue.view.shuttingDown = false
  | .serving => phases.length = workers ∧ s.queue.view.shuttingDown = false
  | .stopping => phases.length = workers ∧ s.queue.view.shuttingDown = false ∧ s.cancelled = true
  | .draining | .joining =>
    phases.length = workers ∧ s.queue.view.shuttingDown = true ∧ s.cancelled = true
  | .finished => phases.length = workers ∧ s.queue.view.shuttingDown = true ∧ s.cancelled = true ∧
      ∀ φ ∈ phases, φ = .gone
  | .failed _ => phases = [] ∧ s.queue.view.shuttingDown = true

/-- The workers hold the keys that the queue has as worked on, each of them one; a worker ends
only when the queue is shut down, and the last one leaves it empty. -/
structure Orderly (workers : Nat) (s : Site Q) (phases : List Phase) : Prop where
  accounts : s.queue.Accounts
  held : ∀ key, key ∈ s.queue.view.processing ↔ key ∈ phases.filterMap Phase.key
  nodup : (phases.filterMap Phase.key).Nodup
  ended : ∀ φ ∈ phases, φ.ended = true → s.queue.view.shuttingDown = true
  drained : phases ≠ [] → (∀ φ ∈ phases, φ.ended = true) → s.queue.view.queue = []
  fits : s.Fits workers phases

section Orderly

variable {phases ps qs : List Phase}

theorem orderly_begin (manager : Manager) (t : Time) :
    Orderly workers (manager.begin Q t).state [] where
  accounts := accounts_empty
  held key := by simp [Manager.begin]
  nodup := List.nodup_nil
  ended φ hφ := by cases hφ
  drained h := absurd rfl h
  fits := ⟨rfl, by simp [Manager.begin]⟩

theorem ReflGen.accounts {q q' : Tracked Q} (h : Relation.ReflGen Operates q q')
    (hq : q.Accounts) : q'.Accounts := by
  cases h with
  | refl => exact hq
  | single h => exact h.accounts hq

/-- One worker among the others. -/
theorem forall_phases {P : Phase → Prop} :
    (∀ χ ∈ ps ++ φ :: qs, P χ) ↔ P φ ∧ ∀ χ ∈ ps ++ qs, P χ := by
  simp only [List.mem_append, List.mem_cons]
  grind

theorem filterMap_key (ps : List Phase) (φ : Phase) (qs : List Phase) :
    (ps ++ φ :: qs).filterMap Phase.key =
      ps.filterMap Phase.key ++ (φ.key.toList ++ qs.filterMap Phase.key) := by
  rw [List.filterMap_append, List.filterMap_cons]
  cases φ.key <;> rfl

/-- What a turn does to the keys that are held. -/
theorem Turns.held (h : Turns reconcile s φ s' φ') (haccounts : s.queue.Accounts)
    (hheld : ∀ key, key ∈ s.queue.view.processing ↔ key ∈ (ps ++ φ :: qs).filterMap Phase.key)
    (hnodup : ((ps ++ φ :: qs).filterMap Phase.key).Nodup) :
    s'.queue.Accounts ∧
    (∀ key, key ∈ s'.queue.view.processing ↔ key ∈ (ps ++ φ' :: qs).filterMap Phase.key) ∧
      ((ps ++ φ' :: qs).filterMap Phase.key).Nodup := by
  rw [filterMap_key] at hnodup
  simp only [filterMap_key] at hheld ⊢
  rcases h.queue with ⟨key, rfl, rfl, hget⟩ | ⟨key, result, rfl, rfl, hdone⟩ |
    ⟨hkey, hquiet, hoperates⟩
  · obtain ⟨hqueue, -, hview⟩ := get_eq_some hget
    have hfree : key ∉ s.queue.view.processing :=
      ((haccounts.ordered.mem_queue key).mp (by simp [hqueue])).2
    have hnew := (hheld key).not.mp hfree
    refine ⟨haccounts.get hget, fun k => ?_, ?_⟩
    · rw [hview, Finset.mem_insert, hheld k]
      simp only [Phase.key, Option.toList_none, Option.toList_some, List.nil_append,
        List.mem_append, List.mem_singleton]
      tauto
    · simp only [Phase.key, Option.toList_none, Option.toList_some, List.nil_append]
        at hnew hnodup ⊢
      exact List.nodup_middle.mpr (List.nodup_cons.mpr ⟨hnew, hnodup⟩)
  · have hmem : key ∈ s.queue.view.processing := (hheld key).mpr (by simp [Phase.key])
    rw [hdone]
    simp only [Phase.key, Option.toList_none, Option.toList_some, List.nil_append,
      List.singleton_append] at hheld hnodup ⊢
    rw [List.nodup_middle, List.nodup_cons] at hnodup
    refine ⟨haccounts.done hmem, fun k => ?_, hnodup.2⟩
    rw [view_done hmem, Finset.mem_erase, hheld k, List.mem_append, List.mem_cons]
    by_cases hk : k = key
    · subst hk
      simpa using hnodup.1
    · simp [hk]
  · rw [hkey]
    refine ⟨ReflGen.accounts hoperates haccounts, fun k => ?_, hnodup⟩
    rw [hquiet.processing, hheld k]

theorem Turns.fits (h : Turns reconcile s φ s' φ')
    (hclosed : s'.queue.view.shuttingDown = s.queue.view.shuttingDown)
    (hfits : s.Fits workers (ps ++ φ :: qs)) : s'.Fits workers (ps ++ φ' :: qs) := by
  obtain ⟨hstage, hcancelled, -⟩ := h.site
  have hlength : (ps ++ φ' :: qs).length = (ps ++ φ :: qs).length := by simp
  unfold Site.Fits at hfits ⊢
  rw [hstage, hcancelled, hclosed, hlength]
  cases hs : s.stage with
  | syncing | synced | announced | failed err =>
    rw [hs] at hfits
    exact absurd hfits.1 (by simp)
  | finished =>
    rw [hs] at hfits
    have hgone := hfits.2.2.2 φ (by simp)
    subst hgone
    cases h
  | _ =>
    rw [hs] at hfits
    exact hfits

/-- Only one worker changes, and it ends only where nothing is left. -/
theorem Turns.drained (h : Turns reconcile s φ s' φ')
    (hdrained : (∀ χ ∈ ps ++ φ :: qs, χ.ended = true) → s.queue.view.queue = [])
    (hall : ∀ χ ∈ ps ++ φ' :: qs, χ.ended = true) : s'.queue.view.queue = [] := by
  obtain ⟨hqueue, hended | ⟨hempty, -⟩⟩ := h.ended (hall φ' (by simp))
  · rw [hqueue]
    exact hdrained (forall_phases.mpr ⟨hended, (forall_phases.mp hall).2⟩)
  · rw [hqueue]
    exact hempty

theorem Orderly.holds (hs : Orderly workers s (ps ++ φ :: qs)) (key : ResourceKey)
    (hkey : φ.key = some key) : key ∈ s.queue.view.processing :=
  (hs.held key).mpr (List.mem_filterMap.mpr ⟨φ, by simp, hkey⟩)

theorem Orderly.shuttingDown (hs : Orderly workers s (ps ++ φ :: qs))
    (h : Turns reconcile s φ s' φ') :
    s'.queue.view.shuttingDown = s.queue.view.shuttingDown := h.shuttingDown hs.holds

theorem Orderly.turn (hs : Orderly workers s (ps ++ φ :: qs)) (h : Turns reconcile s φ s' φ') :
    Orderly workers s' (ps ++ φ' :: qs) := by
  obtain ⟨haccounts, hheld, hnodup⟩ := h.held hs.accounts hs.held hs.nodup
  refine ⟨haccounts, hheld, hnodup, ?_, fun _ hall => h.drained (hs.drained (by simp)) hall,
    h.fits (hs.shuttingDown h) hs.fits⟩
  rw [hs.shuttingDown h]
  obtain ⟨hself, hothers⟩ := forall_phases.mp hs.ended
  refine forall_phases.mpr ⟨fun hended => ?_, hothers⟩
  rcases (h.ended hended).2 with hbefore | hclosed
  · exact hself hbefore
  · exact hclosed.2

/-- The end of the context spoils nothing. -/
theorem Site.Fits.keep (hfits : s.Fits workers phases) (hstage : s'.stage = s.stage)
    (hclosed : s'.queue.view.shuttingDown = s.queue.view.shuttingDown)
    (hcancelled : s.cancelled = true → s'.cancelled = true) : s'.Fits workers phases := by
  unfold Site.Fits at hfits ⊢
  rw [hstage, hclosed]
  cases hs : s.stage <;> rw [hs] at hfits
  case stopping | draining | joining => exact ⟨hfits.1, hfits.2.1, hcancelled hfits.2.2⟩
  case finished => exact ⟨hfits.1, hfits.2.1, hcancelled hfits.2.2.1, hfits.2.2.2⟩
  all_goals exact hfits

theorem Passes.fits (h : Passes H d known s s') (hfits : s.Fits workers phases) :
    s'.Fits workers phases := by
  cases h with
  | callback h hknown | sweep hknown =>
    refine hfits.keep rfl ?_ id
    rw [view_add, QueueView.mark_shuttingDown]
  | due h =>
    refine hfits.keep rfl ?_ id
    rw [view_fire h, QueueView.mark_shuttingDown]
  | dispatch h => exact hfits.keep rfl rfl id
  | cancel => exact hfits.keep rfl rfl fun _ => rfl
  | unsynced h =>
    unfold Site.Fits at hfits
    rw [h] at hfits
    refine ⟨hfits.1, ?_⟩
    rw [view_shutDown]
  | synced h | onCacheSync h =>
    unfold Site.Fits at hfits
    rw [h] at hfits
    exact hfits
  | stop h hcancelled =>
    unfold Site.Fits at hfits
    rw [h] at hfits
    exact ⟨hfits.1, hfits.2, hcancelled⟩
  | shut h =>
    unfold Site.Fits at hfits
    rw [h] at hfits
    refine ⟨hfits.1, ?_, hfits.2.2⟩
    rw [view_shutDown]
  | drained h hdrained =>
    unfold Site.Fits at hfits
    rw [h] at hfits
    exact hfits

theorem Orderly.pass (hs : Orderly workers s phases) (h : Passes H d known s s') :
    Orderly workers s' phases := by
  obtain ⟨hquiet, hoperates, hclosed⟩ := h.queue
  refine ⟨ReflGen.accounts hoperates hs.accounts, fun key => ?_, hs.nodup,
    fun φ hφ hended => (hclosed (hs.ended φ hφ hended)).2, fun hne hall => ?_, h.fits hs.fits⟩
  · rw [hquiet.processing]
    exact hs.held key
  · obtain ⟨φ, hφ⟩ := List.exists_mem_of_ne_nil phases hne
    exact (hclosed (hs.ended φ hφ (hall φ hφ))).1.trans (hs.drained hne hall)

/-- The workers start. -/
theorem Orderly.launched (hs : Orderly workers s []) (h : s.stage = .announced) :
    Orderly workers { s with stage := .serving } (List.replicate workers .idle) := by
  have hfits := hs.fits
  unfold Site.Fits at hfits
  rw [h] at hfits
  have hidle : ∀ φ ∈ List.replicate workers Phase.idle, φ.ended = false := by
    intro φ hφ
    rw [List.eq_of_mem_replicate hφ]
    rfl
  refine ⟨hs.accounts, fun key => ?_, ?_, ?_, ?_, List.length_replicate, hfits.2⟩
  · rw [List.filterMap_replicate_of_none rfl]
    exact hs.held key
  · rw [List.filterMap_replicate_of_none rfl]
    exact List.nodup_nil
  · intro φ hφ hended
    rw [hidle φ hφ] at hended
    cases hended
  · intro hne hall
    obtain ⟨φ, hφ⟩ := List.exists_mem_of_ne_nil _ hne
    have hended := hall φ hφ
    rw [hidle φ hφ] at hended
    cases hended

theorem Orderly.joined (hs : Orderly workers s phases) (h : s.stage = .joining)
    (hgone : ∀ φ ∈ phases, φ = .gone) : Orderly workers { s with stage := .finished } phases := by
  have hfits := hs.fits
  unfold Site.Fits at hfits
  rw [h] at hfits
  exact ⟨hs.accounts, hs.held, hs.nodup, hs.ended, hs.drained, hfits.1, hfits.2.1, hfits.2.2,
    hgone⟩

/-- A worker that is done has no key, so its phase is known. -/
theorem view_stopped {result : Bool} (h : φ.view reconcile = .stopped result) : φ = .gone := by
  cases φ with
  | gone => rfl
  | _ => cases h

end Orderly

/-- The calls of one execution, with what they were answered. -/
def callsOf (trace : List (RuleRaven.Event Execution)) (i : Execution) : List (Sigma Op.Reply) :=
  (trace.filter fun e => e.worker = i).map fun e => ⟨e.op, e.reply⟩

@[simp] theorem callsOf_nil (i : Execution) : callsOf [] i = [] := rfl

theorem callsOf_append (trace more : List (RuleRaven.Event Execution)) (i : Execution) :
    callsOf (trace ++ more) i = callsOf trace i ++ callsOf more i := by
  rw [callsOf, List.filter_append, List.map_append, callsOf, callsOf]

theorem callsOf_eq_nil {trace : List (RuleRaven.Event Execution)} {i : Execution}
    (h : ∀ e ∈ trace, e.worker ≠ i) : callsOf trace i = [] := by
  rw [callsOf, List.filter_eq_nil_iff.mpr fun e he => by simpa using h e he, List.map_nil]

/-- What a reconciliation returned asks for the key to be looked at again. -/
def again : Except Err Controller.Result → Bool
  | .error _ => true
  | .ok result => 0 < result.requeueAfter

/-- The key comes again if that was asked for, or the context is over. -/
def Site.Reacts (s : Site Q) (key : ResourceKey) (result : Except Err Controller.Result) : Prop :=
  again result = true → s.cancelled = true ∨ Since (.delayed key) (.got key) s.queue.log

/-- The calls so far of the reconciliation that a worker is at, and what came of it. -/
def Phase.Doing (reconcile : ReconcileFunc) (s : Site Q) : Phase → Prop
  | .working key p => ∀ more result, p.Does more result →
      (reconcile key).Does (callsOf s.world.trace (s.latest key) ++ more) result
  | .retrying key err =>
      (reconcile key).Does (callsOf s.world.trace (s.latest key)) (.error err)
  | .checking key result _ | .delaying key result _ =>
      (reconcile key).Does (callsOf s.world.trace (s.latest key)) (.ok result)
  | .closing key result =>
      (reconcile key).Does (callsOf s.world.trace (s.latest key)) result ∧ s.Reacts key result
  | _ => True

/-- It depends on the calls of one execution only, and on the marks of one key. -/
theorem Phase.Doing.transfer (hφ : φ.Doing reconcile s)
    (hcalls : ∀ key, φ.key = some key →
      callsOf s'.world.trace (s'.latest key) = callsOf s.world.trace (s.latest key))
    (hreacts : ∀ key result, φ.key = some key → s.Reacts key result → s'.Reacts key result) :
    φ.Doing reconcile s' := by
  cases φ with
  | working key p =>
    intro more result hdoes
    rw [hcalls key rfl]
    exact hφ more result hdoes
  | retrying key err | checking key result h | delaying key result h =>
    simp only [Phase.Doing, hcalls key rfl] at hφ ⊢
    exact hφ
  | closing key result =>
    simp only [Phase.Doing, hcalls key rfl] at hφ ⊢
    exact ⟨hφ.1, hreacts key result rfl hφ.2⟩
  | _ => trivial

/-- The calls of two reconciliations of one key come in the order of their starts. -/
def InOrder (e f : RuleRaven.Event Execution) : Prop :=
  ∀ key m n, e.worker = .reconcile key m → f.worker = .reconcile key n → m ≤ n

/-- What the trace holds of the reconciliations: an execution is over once its key is done, it
ran from the start of `Reconcile` to its return, and the key was put off if it is to be looked
at again. -/
structure Recorded (reconcile : ReconcileFunc) (s : Site Q) (phases : List Phase) : Prop where
  names : ∀ e ∈ s.world.trace, ∀ key n, e.worker = .reconcile key n →
    1 ≤ n ∧ n ≤ started s.queue key
  ordered : s.world.trace.Pairwise InOrder
  gone : ∀ key n, .reconcile key n ∈ s.world.gone ↔ 1 ≤ n ∧ n ≤ started s.queue key ∧
    (n = started s.queue key → key ∉ s.queue.view.processing)
  doing : ∀ φ ∈ phases, φ.Doing reconcile s
  ran : ∀ key n, .reconcile key n ∈ s.world.gone →
    ∃ result, (reconcile key).Does (callsOf s.world.trace (.reconcile key n)) result ∧
      (n = started s.queue key → s.Reacts key result)
  dispatches : ∀ t ∈ s.dispatches, ∃ n, t.1 = .dispatch n

/-- Two states that agree on the reconciliations. -/
structure Alike (s s' : Site Q) : Prop where
  processing : s'.queue.view.processing = s.queue.view.processing
  log : ∃ events, s'.queue.log = s.queue.log ++ events ∧ ∀ e ∈ events, e.isGot = false
  cancelled : s.cancelled = true → s'.cancelled = true
  trace : ∃ events, s'.world.trace = s.world.trace ++ events ∧
    ∀ e ∈ events, ∃ n, e.worker = .dispatch n
  gone : ∀ key n, .reconcile key n ∈ s'.world.gone ↔ .reconcile key n ∈ s.world.gone
  dispatches : (∀ t ∈ s.dispatches, ∃ n, t.1 = .dispatch n) →
    ∀ t ∈ s'.dispatches, ∃ n, t.1 = .dispatch n

section Alike

variable {phases : List Phase} {key : ResourceKey} {n : Nat}

theorem Alike.since (h : Alike s s') (hsince : Since (.delayed key) (.got key) s.queue.log) :
    Since (.delayed key) (.got key) s'.queue.log := by
  obtain ⟨events, hlog, hnone⟩ := h.log
  rw [hlog]
  exact hsince.append fun hgot => by cases hnone _ hgot

theorem Alike.started (h : Alike s s') : started s'.queue key = started s.queue key := by
  obtain ⟨events, hlog, hnone⟩ := h.log
  have hzero : events.count (.got key) = 0 :=
    List.count_eq_zero.mpr fun hgot => by cases hnone _ hgot
  rw [Kube.started, hlog, List.count_append, hzero, Nat.add_zero, Kube.started]

theorem Alike.calls (h : Alike s s') :
    callsOf s'.world.trace (.reconcile key n) = callsOf s.world.trace (.reconcile key n) := by
  obtain ⟨events, htrace, hothers⟩ := h.trace
  have hnone : callsOf events (.reconcile key n) = [] := by
    refine callsOf_eq_nil fun e he heq => ?_
    obtain ⟨m, hm⟩ := hothers e he
    rw [hm] at heq
    cases heq
  rw [htrace, callsOf_append, hnone, List.append_nil]

theorem Alike.reacts (h : Alike s s') {result : Except Err Controller.Result}
    (hreacts : s.Reacts key result) : s'.Reacts key result :=
  fun hagain => (hreacts hagain).imp h.cancelled h.since

theorem Alike.latest (h : Alike s s') (key : ResourceKey) : s'.latest key = s.latest key := by
  rw [Site.latest, h.started, Site.latest]

theorem Alike.doing (h : Alike s s') (hφ : φ.Doing reconcile s) : φ.Doing reconcile s' := by
  refine hφ.transfer (fun key _ => ?_) fun key result _ => h.reacts
  rw [h.latest]
  exact h.calls

theorem Recorded.alike (hs : Recorded reconcile s phases) (h : Alike s s') {phases' : List Phase}
    (hdoing : ∀ φ ∈ phases', φ.Doing reconcile s') : Recorded reconcile s' phases' where
  names e he key n hname := by
    obtain ⟨events, htrace, hothers⟩ := h.trace
    rw [h.started]
    rw [htrace] at he
    rcases List.mem_append.mp he with he | he
    · exact hs.names e he key n hname
    · obtain ⟨m, hm⟩ := hothers e he
      rw [hm] at hname
      cases hname
  ordered := by
    obtain ⟨events, htrace, hothers⟩ := h.trace
    have hdispatch : ∀ e ∈ events, ∀ key n, e.worker ≠ .reconcile key n := by
      intro e he key n heq
      obtain ⟨m, hm⟩ := hothers e he
      rw [hm] at heq
      cases heq
    rw [htrace, List.pairwise_append]
    refine ⟨hs.ordered, List.pairwise_of_forall_mem_list fun e he _ _ key m _ heq => ?_,
      fun e _ f hf key _ n _ heq => ?_⟩
    · exact absurd heq (hdispatch e he key m)
    · exact absurd heq (hdispatch f hf key n)
  gone key n := by
    rw [h.gone, h.started, h.processing]
    exact hs.gone key n
  doing := hdoing
  ran key n hgone := by
    obtain ⟨result, hdoes, hreacts⟩ := hs.ran key n ((h.gone key n).mp hgone)
    rw [h.calls, h.started]
    exact ⟨result, hdoes, fun hlatest => h.reacts (hreacts hlatest)⟩
  dispatches := h.dispatches hs.dispatches

theorem Quiet.alike (hquiet : Quiet s.queue s'.queue) (hworld : s'.world = s.world)
    (hcancelled : s.cancelled = true → s'.cancelled = true)
    (hdispatches : s'.dispatches = s.dispatches) : Alike s s' where
  processing := hquiet.processing
  log := hquiet.log
  cancelled := hcancelled
  trace := ⟨[], by rw [hworld, List.append_nil], by simp⟩
  gone key n := by rw [hworld]
  dispatches h := by rwa [hdispatches]

/-- Dispatches leave the reconciliations alone. -/
theorem alike_dispatch {world : World Execution} {dispatches : List (Execution × Eff Unit)}
    (hs : ∀ t ∈ s.dispatches, ∃ n, t.1 = .dispatch n)
    (h : Step (machine Execution) (starts H (dispatching d)) ⟨s.world, s.dispatches⟩
      ⟨world, dispatches⟩) : Alike s { s with world := world, dispatches := dispatches } := by
  have hlog : ∃ events, s.queue.log = s.queue.log ++ events ∧ ∀ e ∈ events, e.isGot = false :=
    ⟨[], by simp, by simp⟩
  obtain ⟨stage, handler, cancelled, queue, w, ts⟩ := s
  dsimp only at hs h hlog
  cases h with
  | env _ _ _ h =>
    obtain ⟨t, -, rfl⟩ := h
    exact ⟨rfl, hlog, id, ⟨[], by simp, by simp⟩, fun _ _ => Iff.rfl, id⟩
  | start _ _ i p h hnew =>
    refine ⟨rfl, hlog, id, ⟨[], by simp, by simp⟩, fun _ _ => Iff.rfl, fun hold t ht => ?_⟩
    rcases List.mem_append.mp ht with ht | ht
    · exact hold t ht
    · rw [List.mem_singleton.mp ht]
      obtain ⟨⟨task, hdispatch, -⟩, -⟩ := h
      exact hdispatch.1
  | act _ _ us vs i op next reply h =>
    obtain ⟨n, hi⟩ := hs (i, .call op next) (by simp)
    obtain ⟨store, -, rfl⟩ := h
    refine ⟨rfl, hlog, id, ⟨_, rfl, ?_⟩, fun _ _ => Iff.rfl, fun hold t ht => ?_⟩
    · intro e he
      rw [List.mem_singleton.mp he]
      exact ⟨n, hi⟩
    · rcases List.mem_append.mp ht with ht | ht
      · exact hold t (by simp [ht])
      · rcases List.mem_cons.mp ht with rfl | ht
        · exact ⟨n, hi⟩
        · exact hold t (by simp [ht])
  | stop _ us vs i p =>
    obtain ⟨n, hi⟩ := hs (i, p) (by simp)
    refine ⟨rfl, hlog, id, ⟨[], by simp [machine], by simp⟩, fun key m => ?_, fun hold t ht => ?_⟩
    · have hne : (.reconcile key m : Execution) ≠ i := fun heq => by
        rw [← heq] at hi
        cases hi
      simp [machine, hne]
    · rcases List.mem_append.mp ht with ht | ht <;> exact hold t (by simp [ht])

theorem Passes.alike (h : Passes H d known s s')
    (hs : ∀ t ∈ s.dispatches, ∃ n, t.1 = .dispatch n) : Alike s s' := by
  have hquiet := h.queue.1
  cases h with
  | dispatch h => exact alike_dispatch hs h
  | cancel => exact Quiet.alike hquiet rfl (fun _ => rfl) rfl
  | _ => exact Quiet.alike hquiet rfl id rfl

end Alike

section Turn

variable {ps qs : List Phase} {key : ResourceKey}

theorem since_got_pos {queue : Tracked Q} (hq : queue.Accounts)
    (h : key ∈ queue.view.processing) : 1 ≤ started queue key := by
  obtain ⟨front, back, hlog, -⟩ := (hq.mem_processing key).mp h
  rw [started, hlog]
  exact List.count_pos_iff.mpr (by simp)

theorem started_got {queue : Tracked Q} (hlog : queue.log = s.queue.log ++ [.got key]) :
    started queue key = started s.queue key + 1 ∧
      ∀ k, k ≠ key → started queue k = started s.queue k := by
  refine ⟨by simp [started, hlog], fun k hk => ?_⟩
  simp [started, hlog, Ne.symm hk]

/-- At a start the latest execution of the key is over, and the new one is not. -/
theorem Recorded.gone_got {phases : List Phase} (hs : Recorded reconcile s phases)
    {queue : Tracked Q} (hget : s.queue.get = some (some key, queue))
    (hfree : key ∉ s.queue.view.processing) (k : ResourceKey) (n : Nat) :
    .reconcile k n ∈ s.world.gone ↔ 1 ≤ n ∧ n ≤ started queue k ∧
      (n = started queue k → k ∉ queue.view.processing) := by
  obtain ⟨-, hlog, hview⟩ := get_eq_some hget
  obtain ⟨hself, hother⟩ := started_got hlog
  rw [hs.gone k n, hview, Finset.mem_insert]
  by_cases hk : k = key
  · subst hk
    rw [hself]
    constructor
    · rintro ⟨hpos, hn, -⟩
      exact ⟨hpos, by omega, fun heq => by omega⟩
    · rintro ⟨hpos, hn, hlast⟩
      refine ⟨hpos, ?_, fun _ => hfree⟩
      by_contra hlt
      exact hlast (by omega) (Or.inl rfl)
  · rw [hother k hk]
    simp [hk]

/-- At its end it is over. -/
theorem Recorded.gone_closed {phases : List Phase} (hs : Recorded reconcile s phases)
    (haccounts : s.queue.Accounts) (hmem : key ∈ s.queue.view.processing) (k : ResourceKey)
    (n : Nat) : .reconcile k n ∈ s.world.gone ++ [s.latest key] ↔
      1 ≤ n ∧ n ≤ started s.queue k ∧
        (n = started s.queue k → k ∉ (s.queue.done key).view.processing) := by
  rw [List.mem_append, List.mem_singleton, hs.gone k n, view_done hmem, Finset.mem_erase,
    Site.latest]
  by_cases hk : k = key
  · subst hk
    have hpos := since_got_pos haccounts hmem
    constructor
    · rintro (⟨hpos, hn, -⟩ | heq)
      · exact ⟨hpos, hn, fun _ h => h.1 rfl⟩
      · cases heq
        exact ⟨hpos, le_rfl, fun _ h => h.1 rfl⟩
    · rintro ⟨hpos, hn, -⟩
      by_cases hlast : n = started s.queue k
      · exact Or.inr (by rw [hlast])
      · exact Or.inl ⟨hpos, hn, fun heq => absurd heq hlast⟩
  · simp [hk]

/-- A start gives the execution a new name. -/
theorem Recorded.got (hs : Recorded reconcile s (ps ++ .idle :: qs)) (haccounts : s.queue.Accounts)
    {queue : Tracked Q} (hget : s.queue.get = some (some key, queue))
    (hheld : ∀ k, k ∈ s.queue.view.processing ↔ k ∈ (ps ++ .idle :: qs).filterMap Phase.key) :
    Recorded reconcile { s with queue := queue } (ps ++ .working key (reconcile key) :: qs) := by
  obtain ⟨hqueue, hlog, hview⟩ := get_eq_some hget
  have hfree : key ∉ s.queue.view.processing :=
    ((haccounts.ordered.mem_queue key).mp (by simp [hqueue])).2
  obtain ⟨hself, hother⟩ := started_got hlog
  have hle : ∀ k, started s.queue k ≤ started queue k := by
    intro k
    by_cases hk : k = key
    · rw [hk, hself]
      exact Nat.le_succ _
    · rw [hother k hk]
  have hsince : ∀ k, k ≠ key → Since (.delayed k) (.got k) s.queue.log →
      Since (.delayed k) (.got k) queue.log := by
    intro k hk h
    rw [hlog]
    exact h.append (by simpa using hk)
  refine ⟨fun e he k n hname => ?_, hs.ordered, hs.gone_got hget hfree, fun φ hφ => ?_,
    fun k n hover => ?_, hs.dispatches⟩
  · obtain ⟨hpos, hn⟩ := hs.names e he k n hname
    exact ⟨hpos, hn.trans (hle k)⟩
  · revert φ hφ
    have hrest : ∀ χ ∈ ps ++ .idle :: qs, χ.Doing reconcile { s with queue := queue } := by
      intro χ hχ
      have hne : ∀ k, χ.key = some k → k ≠ key := by
        rintro k hk rfl
        exact hfree ((hheld k).mpr (List.mem_filterMap.mpr ⟨χ, hχ, hk⟩))
      refine (hs.doing χ hχ).transfer (fun k hk => ?_) fun k result hk hreacts hagain => ?_
      · rw [Site.latest, hother k (hne k hk), Site.latest]
      · exact (hreacts hagain).imp_right (hsince k (hne k hk))
    refine forall_phases.mpr ⟨fun more result hdoes => ?_, (forall_phases.mp hrest).2⟩
    have hnew : callsOf s.world.trace (.reconcile key (started queue key)) = [] := by
      refine callsOf_eq_nil fun e he heq => ?_
      have hn := (hs.names e he key _ heq).2
      omega
    show (reconcile key).Does (callsOf s.world.trace (.reconcile key (started queue key)) ++
      more) result
    rw [hnew]
    exact hdoes
  · obtain ⟨result, hdoes, hreacts⟩ := hs.ran k n hover
    refine ⟨result, hdoes, fun hlast hagain => ?_⟩
    have hn := ((hs.gone k n).mp hover).2.1
    have hk : k ≠ key := by
      rintro rfl
      have hstarted : n = started queue k := hlast
      omega
    refine (hreacts ?_ hagain).imp_right (hsince k hk)
    rw [← hother k hk]
    exact hlast

/-- The end of an execution. -/
theorem Recorded.closed {result : Except Err Controller.Result}
    (hs : Recorded reconcile s (ps ++ .closing key result :: qs)) (haccounts : s.queue.Accounts)
    (hheld : ∀ k, k ∈ s.queue.view.processing ↔
      k ∈ (ps ++ .closing key result :: qs).filterMap Phase.key) :
    Recorded reconcile
      { s with
        queue := s.queue.done key
        world := (machine Execution).halt (s.latest key) s.world } (ps ++ .looping :: qs) := by
  have hmem : key ∈ s.queue.view.processing :=
    (hheld key).mpr (List.mem_filterMap.mpr ⟨.closing key result, by simp, rfl⟩)
  have hstarted : ∀ k, started (s.queue.done key) k = started s.queue k := by
    intro k
    simp [started, Tracked.done]
  have hsince : ∀ k, Since (.delayed k) (.got k) s.queue.log →
      Since (.delayed k) (.got k) (s.queue.done key).log :=
    fun k h => h.append (by simp)
  have hreacts : ∀ k result, s.Reacts k result → Site.Reacts
      { s with
        queue := s.queue.done key
        world := (machine Execution).halt (s.latest key) s.world } k result :=
    fun k result h hagain => (h hagain).imp_right (hsince k)
  have hclosing := hs.doing (.closing key result) (by simp)
  refine ⟨fun e he k n hname => ?_, hs.ordered, fun k n => ?_, fun φ hφ => ?_,
    fun k n hover => ?_, hs.dispatches⟩
  · rw [hstarted]
    exact hs.names e he k n hname
  · rw [hstarted]
    exact hs.gone_closed haccounts hmem k n
  · revert φ hφ
    have hrest : ∀ χ ∈ ps ++ .closing key result :: qs, χ.Doing reconcile
        { s with
          queue := s.queue.done key
          world := (machine Execution).halt (s.latest key) s.world } := by
      intro χ hχ
      refine (hs.doing χ hχ).transfer (fun k _ => ?_) fun k result _ => hreacts k result
      show callsOf s.world.trace (.reconcile k (started (s.queue.done key) k)) = _
      rw [hstarted]
      rfl
    exact forall_phases.mpr ⟨trivial, (forall_phases.mp hrest).2⟩
  · rcases List.mem_append.mp hover with hover | hover
    · obtain ⟨result, hdoes, hold⟩ := hs.ran k n hover
      refine ⟨result, hdoes, fun hlast => hreacts k result (hold ?_)⟩
      rw [← hstarted k]
      exact hlast
    · rw [List.mem_singleton, Site.latest] at hover
      cases hover
      exact ⟨result, hclosing.1, fun _ => hreacts key result hclosing.2⟩

/-- One call of a reconciliation. -/
theorem Recorded.call {op : Op} {next : op.Reply → Eff (Except Err Controller.Result)}
    {reply : op.Reply} {store : Store}
    (hs : Recorded reconcile s (ps ++ .working key (.call op next) :: qs))
    (haccounts : s.queue.Accounts)
    (hheld : ∀ k, k ∈ s.queue.view.processing ↔
      k ∈ (ps ++ .working key (.call op next) :: qs).filterMap Phase.key)
    (hnodup : ((ps ++ .working key (.call op next) :: qs).filterMap Phase.key).Nodup) :
    Recorded reconcile { s with world := s.world.extend (s.latest key) op reply store }
      (ps ++ .working key (next reply) :: qs) := by
  have hmem : key ∈ s.queue.view.processing :=
    (hheld key).mpr (List.mem_filterMap.mpr ⟨.working key (.call op next), by simp, rfl⟩)
  have hself : callsOf (s.world.extend (s.latest key) op reply store).trace (s.latest key) =
      callsOf s.world.trace (s.latest key) ++ [⟨op, reply⟩] := by
    simp [World.extend, callsOf]
  have hother : ∀ i, i ≠ s.latest key →
      callsOf (s.world.extend (s.latest key) op reply store).trace i = callsOf s.world.trace i := by
    intro i hi
    simp [World.extend, callsOf, Ne.symm hi]
  have hworking := hs.doing (.working key (.call op next)) (by simp)
  rw [filterMap_key] at hnodup
  have hfree : key ∉ (ps ++ qs).filterMap Phase.key := by
    rw [List.filterMap_append]
    exact (List.nodup_cons.mp (List.nodup_middle.mp hnodup)).1
  have hrest : ∀ χ ∈ ps ++ qs, χ.Doing reconcile
      { s with world := s.world.extend (s.latest key) op reply store } := by
    intro χ hχ
    refine ((forall_phases.mp hs.doing).2 χ hχ).transfer (fun k hk => hother _ fun heq => ?_)
      fun _ _ _ h => h
    cases heq
    exact hfree (List.mem_filterMap.mpr ⟨χ, hχ, hk⟩)
  refine ⟨fun e he k n hname => ?_, ?_, hs.gone, fun φ hφ => ?_, fun k n hover => ?_,
    hs.dispatches⟩
  · rcases List.mem_append.mp he with he | he
    · exact hs.names e he k n hname
    · rw [List.mem_singleton.mp he] at hname
      cases hname
      exact ⟨since_got_pos haccounts hmem, le_rfl⟩
  · show (s.world.trace ++ [_]).Pairwise InOrder
    rw [List.pairwise_append]
    refine ⟨hs.ordered, List.pairwise_singleton _ _, fun e he f hf k m n hm hn => ?_⟩
    rw [List.mem_singleton.mp hf] at hn
    cases hn
    exact (hs.names e he key m hm).2
  · revert φ hφ
    refine forall_phases.mpr ⟨fun more result hdoes => ?_, hrest⟩
    have hall := hworking (⟨op, reply⟩ :: more) result ⟨reply, more, rfl, hdoes⟩
    show (reconcile key).Does
      (callsOf (s.world.extend (s.latest key) op reply store).trace (s.latest key) ++ more) result
    rw [hself, List.append_assoc]
    exact hall
  · obtain ⟨result, hdoes, hreacts⟩ := hs.ran k n hover
    refine ⟨result, ?_, hreacts⟩
    rw [hother]
    · exact hdoes
    · intro heq
      cases heq
      exact ((hs.gone key _).mp hover).2.2 rfl hmem

/-- Where workers are left, the queue is shut down only after the context is over. -/
theorem Site.Fits.cancelled {phases : List Phase} (hfits : s.Fits workers phases)
    (hphases : phases ≠ []) (hclosed : s.queue.view.shuttingDown = true) : s.cancelled = true := by
  unfold Site.Fits at hfits
  cases hs : s.stage <;> rw [hs] at hfits
  case syncing | synced | announced | failed => exact absurd hfits.1 hphases
  case serving =>
    rw [hclosed] at hfits
    cases hfits.2
  case stopping => exact hfits.2.2
  case draining | joining => exact hfits.2.2
  case finished => exact hfits.2.2.1

/-- A delay shows in the log, unless the queue is shut down. -/
theorem reacts_delayed {queue : Tracked Q} (hlog : queue.log = s.queue.note (.delayed key))
    (hcancelled : s.queue.view.shuttingDown = true → s.cancelled = true)
    (result : Except Err Controller.Result) :
    Site.Reacts { s with queue := queue } key result := by
  intro _
  cases hclosed : s.queue.view.shuttingDown with
  | true => exact Or.inl (hcancelled hclosed)
  | false =>
    exact Or.inr ⟨s.queue.log, [], hlog.trans (note_open hclosed), List.not_mem_nil⟩

theorem Recorded.turn (hs : Recorded reconcile s (ps ++ φ :: qs)) (h : Turns reconcile s φ s' φ')
    (haccounts : s.queue.Accounts)
    (hheld : ∀ k, k ∈ s.queue.view.processing ↔ k ∈ (ps ++ φ :: qs).filterMap Phase.key)
    (hnodup : ((ps ++ φ :: qs).filterMap Phase.key).Nodup)
    (hclosed : s.queue.view.shuttingDown = true → s.cancelled = true) :
    Recorded reconcile s' (ps ++ φ' :: qs) := by
  obtain ⟨hself, hothers⟩ := forall_phases.mp hs.doing
  -- The remaining turns neither start nor end an execution, and make no call.
  have hquiet : Alike s s' → φ'.Doing reconcile s' → Recorded reconcile s' (ps ++ φ' :: qs) :=
    fun halike hdoing => hs.alike halike
      (forall_phases.mpr ⟨hdoing, fun χ hχ => halike.doing (hothers χ hχ)⟩)
  cases h with
  | got hget => exact hs.got haccounts hget hheld
  | call next h => exact hs.call haccounts hheld hnodup
  | closed key result => exact hs.closed haccounts hheld
  | shut hget => exact hquiet (Quiet.alike (quiet_get hget) rfl id rfl) trivial
  | failed key err h =>
    have hdoes := hself [] (.error err) ⟨rfl, rfl⟩
    rw [List.append_nil] at hdoes
    exact hquiet (Quiet.alike (.refl _) rfl id rfl) hdoes
  | abandoned key err h =>
    have hdoes := hself [] (.error err) ⟨rfl, rfl⟩
    rw [List.append_nil] at hdoes
    exact hquiet (Quiet.alike (.refl _) rfl id rfl) ⟨hdoes, fun _ => Or.inl h⟩
  | retried key err =>
    have halike : Alike s { s with queue := s.queue.addRateLimited key } :=
      Quiet.alike (quiet_addRateLimited _ _) rfl id rfl
    exact hquiet halike ⟨(halike.doing hself : Phase.Doing reconcile _ (.retrying key err)),
      reacts_delayed rfl hclosed _⟩
  | @settled key result h =>
    have halike : Alike s { s with queue := s.queue.forget key } :=
      Quiet.alike (quiet_forget _ _) rfl id rfl
    have hdoes := (halike.doing hself : Phase.Doing reconcile _ (.working key _)) [] _ ⟨rfl, rfl⟩
    rw [List.append_nil] at hdoes
    exact hquiet halike ⟨hdoes, fun hagain => absurd (of_decide_eq_true hagain) h⟩
  | @succeeded key result h =>
    have halike : Alike s { s with queue := s.queue.forget key } :=
      Quiet.alike (quiet_forget _ _) rfl id rfl
    have hdoes := (halike.doing hself : Phase.Doing reconcile _ (.working key _)) [] _ ⟨rfl, rfl⟩
    rw [List.append_nil] at hdoes
    exact hquiet halike hdoes
  | dropped key hdelay h =>
    exact hquiet (Quiet.alike (.refl _) rfl id rfl) ⟨hself, fun _ => Or.inl h⟩
  | checked key hdelay h => exact hquiet (Quiet.alike (.refl _) rfl id rfl) hself
  | @delayed key result hdelay =>
    have halike : Alike s
        { s with queue := s.queue.addAfter key result.requeueAfter.toInt } :=
      Quiet.alike (quiet_addAfter _ _ (toInt_pos hdelay)) rfl id rfl
    exact hquiet halike
      ⟨(halike.doing hself : Phase.Doing reconcile _ (.delaying key result hdelay)),
        reacts_delayed rfl hclosed _⟩
  | looped => exact hquiet (Quiet.alike (.refl _) rfl id rfl) trivial
  | left => exact hquiet (Quiet.alike (.refl _) rfl id rfl) trivial

end Turn

section Runs

variable {c c' : Plant Q} {phases phases' : List Phase}

/-- One step of the manager, by the phases of its workers. -/
inductive Progress (H : Hasher) (reconcile : ReconcileFunc) (d : Dispatcher)
    (known : ResourceKey → Prop) (workers : Nat) :
    Site Q → List Phase → Site Q → List Phase → Prop
  | turn {s s' : Site Q} {φ φ' : Phase} (ps qs : List Phase) (h : Turns reconcile s φ s' φ') :
      Progress H reconcile d known workers s (ps ++ φ :: qs) s' (ps ++ φ' :: qs)
  | pass {s s' : Site Q} (phases : List Phase) (h : Passes H d known s s') :
      Progress H reconcile d known workers s phases s' phases
  | launched {s : Site Q} (h : s.stage = .announced) :
      Progress H reconcile d known workers s [] { s with stage := .serving }
        (List.replicate workers .idle)
  | joined {s : Site Q} {phases : List Phase} (h : s.stage = .joining)
      (hgone : ∀ φ ∈ phases, φ = .gone) :
      Progress H reconcile d known workers s phases { s with stage := .finished } phases

theorem ManagerStep.progress (h : ManagerStep H reconcile d known workers c c')
    (hcrew : c.workers = phases.map (Phase.view reconcile)) (hfits : c.state.Fits workers phases) :
    ∃ phases', c'.workers = phases'.map (Phase.view reconcile) ∧
      Progress H reconcile d known workers c.state phases c'.state phases' := by
  cases h with
  | work h =>
    obtain ⟨ps, φ, qs, w, rfl, hmoves, hworkers⟩ := h.viewed hcrew
    obtain ⟨φ', rfl, hturn⟩ := moves_turns hmoves
    exact ⟨ps ++ φ' :: qs, by rw [hworkers, List.map_append, List.map_cons], .turn ps qs hturn⟩
  | pass crew h => exact ⟨phases, hcrew, .pass phases h⟩
  | launched crew h =>
    unfold Site.Fits at hfits
    rw [h] at hfits
    obtain ⟨rfl, -⟩ := hfits
    exact ⟨_, by simp [Service.launch, Phase.view, Phase.rest, service], .launched h⟩
  | joined h hfinished =>
    refine ⟨phases, hcrew, .joined h fun φ hφ => ?_⟩
    obtain ⟨result, hstopped⟩ := hfinished (φ.view reconcile)
      (by rw [hcrew]; exact List.mem_map_of_mem hφ)
    exact view_stopped hstopped

theorem Orderly.progress (hs : Orderly workers s phases)
    (h : Progress H reconcile d known workers s phases s' phases') :
    Orderly workers s' phases' := by
  cases h with
  | turn ps qs h => exact hs.turn h
  | pass phases h => exact hs.pass h
  | launched h => exact hs.launched h
  | joined h hgone => exact hs.joined h hgone

theorem Recorded.progress (hs : Recorded reconcile s phases) (horderly : Orderly workers s phases)
    (h : Progress H reconcile d known workers s phases s' phases') :
    Recorded reconcile s' phases' := by
  cases h with
  | turn ps qs h =>
    exact hs.turn h horderly.accounts horderly.held horderly.nodup
      (horderly.fits.cancelled (by simp))
  | pass phases h =>
    have halike := h.alike hs.dispatches
    exact hs.alike halike fun φ hφ => halike.doing (hs.doing φ hφ)
  | launched h =>
    have halike : Alike s { s with stage := .serving } := Quiet.alike (.refl _) rfl id rfl
    refine hs.alike halike fun φ hφ => ?_
    rw [List.eq_of_mem_replicate hφ]
    trivial
  | joined h hgone =>
    have halike : Alike s { s with stage := .finished } := Quiet.alike (.refl _) rfl id rfl
    exact hs.alike halike fun φ hφ => halike.doing (hs.doing φ hφ)

/-- Everything that holds in every run. -/
def Upkept (reconcile : ReconcileFunc) (workers : Nat) (c : Plant Q) : Prop :=
  ∃ phases, c.workers = phases.map (Phase.view reconcile) ∧ Orderly workers c.state phases ∧
    Recorded reconcile c.state phases

theorem recorded_begin (manager : Manager) (t : Time) :
    Recorded reconcile (manager.begin Q t).state [] := by
  refine ⟨?_, List.Pairwise.nil, ?_, ?_, ?_, ?_⟩
  · intro e he
    cases he
  · intro key n
    constructor
    · intro h
      cases h
    · rintro ⟨hpos, hn, -⟩
      exact absurd (hpos.trans hn) (by simp [started, Manager.begin])
  · intro φ hφ
    cases hφ
  · intro key n h
    cases h
  · intro t ht
    cases ht

theorem Upkept.step (h : ManagerStep H reconcile d known workers c c')
    (hc : Upkept reconcile workers c) : Upkept reconcile workers c' := by
  obtain ⟨phases, hcrew, horderly, hrecorded⟩ := hc
  obtain ⟨phases', hcrew', hprogress⟩ := h.progress hcrew horderly.fits
  exact ⟨phases', hcrew', horderly.progress hprogress, hrecorded.progress horderly hprogress⟩

theorem runs_upkept {manager : Manager} {t : Time}
    (hrun : ManagerRuns H reconcile d known workers (manager.begin Q t) c) :
    Upkept reconcile workers c := by
  induction hrun with
  | refl => exact ⟨[], rfl, orderly_begin manager t, recorded_begin manager t⟩
  | tail _ hstep ih => exact ih.step hstep

/-- A step of the manager is at most one operation on its queue. -/
theorem Upkept.operates (hc : Upkept reconcile workers c)
    (h : ManagerStep H reconcile d known workers c c') :
    Relation.ReflGen Operates c.state.queue c'.state.queue := by
  obtain ⟨phases, hcrew, horderly, -⟩ := hc
  obtain ⟨phases', -, hprogress⟩ := h.progress hcrew horderly.fits
  generalize c.state = s at horderly hprogress ⊢
  generalize c'.state = s' at hprogress ⊢
  cases hprogress with
  | turn ps qs h =>
    rcases h.queue with ⟨key, -, -, hget⟩ | ⟨key, result, rfl, -, hdone⟩ | ⟨-, -, hoperates⟩
    · exact .single (.get hget)
    · rw [hdone]
      refine .single (.done ((horderly.held key).mpr ?_))
      exact List.mem_filterMap.mpr ⟨.closing key result, by simp, rfl⟩
    · exact hoperates
  | pass phases h => exact h.queue.2.1
  | launched h => exact .refl
  | joined h hgone => exact .refl

theorem Upkept.runs (hc : Upkept reconcile workers c)
    (hrun : ManagerRuns H reconcile d known workers c c') :
    Upkept reconcile workers c' ∧
      Relation.ReflTransGen Operates c.state.queue c'.state.queue := by
  induction hrun with
  | refl => exact ⟨hc, .refl⟩
  | tail _ hstep ih =>
    exact ⟨ih.1.step hstep, ih.2.trans (ih.1.operates hstep).to_reflTransGen⟩

end Runs

end RuleRaven.Kube
