import RuleRaven.System.Dispatching
import RuleRaven.System.Manager

namespace RuleRaven.Kube

open Framework Controller Notify

variable {Q : Queue ResourceKey}

/-- What a world without faults answers to a worker. -/
def Site.reply (s : Site Q) (env : Env) (op : Op) : op.Reply × Store :=
  World.reply env none { store := s.world.store, clock := s.world.clock } op

theorem answers_reply (s : Site Q) (env : Env) (op : Op) :
    Answers s.world.clock s.world.store op (s.reply env op).1 (s.reply env op).2 := by
  cases op with
  | store op => exact StoreAnswer.done
  | now => exact ⟨rfl, rfl⟩
  | _ => rfl

/-- The turn of a worker in such a world. It has none while it waits for a key, and after its
end. -/
def Phase.turn (reconcile : ReconcileFunc) (env : Env) (s : Site Q) :
    Phase → Option (Site Q × Phase)
  | .idle =>
    match s.queue.get with
    | none => none
    | some (none, queue) => some ({ s with queue := queue }, .leaving)
    | some (some key, queue) => some ({ s with queue := queue }, .working key (reconcile key))
  | .working key (.call op next) => some
      ({ s with world := s.world.extend (s.latest key) op (s.reply env op).1 (s.reply env op).2 },
        .working key (next (s.reply env op).1))
  | .working key (.ret (.error err)) =>
    some (s, if s.cancelled then .closing key (.error err) else .retrying key err)
  | .working key (.ret (.ok result)) =>
    some ({ s with queue := s.queue.forget key },
      if h : 0 < result.requeueAfter then .checking key result h else .closing key (.ok result))
  | .retrying key err =>
    some ({ s with queue := s.queue.addRateLimited key }, .closing key (.error err))
  | .checking key result h =>
    some (s, if s.cancelled then .closing key (.ok result) else .delaying key result h)
  | .delaying key result _ => some
      ({ s with queue := s.queue.addAfter key result.requeueAfter.toInt },
        .closing key (.ok result))
  | .closing key _ => some
      ({ s with
          queue := s.queue.done key
          world := (machine Execution).halt (s.latest key) s.world }, .looping)
  | .looping => some (s, .idle)
  | .leaving => some (s, .gone)
  | .gone => none

variable {H : Hasher} {reconcile : ReconcileFunc} {d : Dispatcher} {known : ResourceKey → Prop}
  {workers : Nat} {env : Env} {s s' : Site Q} {φ φ' : Phase}

theorem turns_of_turn (h : φ.turn reconcile env s = some (s', φ')) :
    Turns reconcile s φ s' φ' := by
  cases φ with
  | idle =>
    dsimp only [Phase.turn] at h
    split at h
    · cases h
    · rename_i hget
      cases h
      exact .shut hget
    · rename_i hget
      cases h
      exact .got hget
  | working key p =>
    cases p with
    | call op next =>
      cases h
      exact .call next (answers_reply s env op)
    | ret result =>
      cases result with
      | error err =>
        cases hcancelled : s.cancelled <;> simp only [Phase.turn, hcancelled] at h <;> cases h
        · exact .failed key err hcancelled
        · exact .abandoned key err hcancelled
      | ok result =>
        by_cases hdelay : 0 < result.requeueAfter
        · simp only [Phase.turn, dif_pos hdelay] at h
          cases h
          exact .succeeded key hdelay
        · simp only [Phase.turn, dif_neg hdelay] at h
          cases h
          exact .settled key hdelay
  | retrying key err =>
    cases h
    exact .retried s key err
  | checking key result hdelay =>
    cases hcancelled : s.cancelled <;> simp only [Phase.turn, hcancelled] at h <;> cases h
    · exact .checked key hdelay hcancelled
    · exact .dropped key hdelay hcancelled
  | delaying key result hdelay =>
    cases h
    exact .delayed s key hdelay
  | closing key result =>
    cases h
    exact .closed s key result
  | looping =>
    cases h
    exact .looped _
  | leaving =>
    cases h
    exact .left _
  | gone => cases h

/-- A worker waits only at an empty queue that is not shut down. -/
theorem turn_isSome (reconcile : ReconcileFunc) (env : Env) (hφ : φ ≠ .gone)
    (hget : φ = .idle → s.queue.view.queue = [] → s.queue.view.shuttingDown = true) :
    ∃ s' φ', φ.turn reconcile env s = some (s', φ') := by
  cases φ with
  | idle =>
    obtain ⟨_ | key, queue, hqueue⟩ := Tracked.get_ready (hget rfl)
    · exact ⟨_, _, by simp only [Phase.turn, hqueue]; rfl⟩
    · exact ⟨_, _, by simp only [Phase.turn, hqueue]; rfl⟩
  | working key p =>
    cases p with
    | call op next => exact ⟨_, _, rfl⟩
    | ret result => cases result <;> exact ⟨_, _, rfl⟩
  | gone => exact absurd rfl hφ
  | _ => exact ⟨_, _, rfl⟩

/-- One entry of a rota: something happens beside the workers, or a worker takes some turns. -/
inductive Duty where
  | sync
  | announce
  | launch
  | sweep (key : ResourceKey)
  | due (key : ResourceKey)
  | wait (nanoseconds : Nat)
  | cancel
  | stop
  | shut
  | drained
  | joined
  | work (worker turns : Nat) (env : Env)

section Play

variable (reconcile : ReconcileFunc) (known : ResourceKey → Prop) [DecidablePred known]
  (workers : Nat)

/-- Some turns of one worker. -/
def Phase.turns (env : Env) : Nat → Site Q → Phase → Option (Site Q × Phase)
  | 0, s, φ => some (s, φ)
  | n + 1, s, φ =>
    match φ.turn reconcile env s with
    | none => none
    | some (s', φ') => Phase.turns env n s' φ'

def Duty.play : Duty → Site Q × List Phase → Option (Site Q × List Phase)
  | .sync, (s, phases) =>
    if s.stage = .syncing then some ({ s with stage := .synced }, phases) else none
  | .announce, (s, phases) =>
    if s.stage = .synced then some ({ s with stage := .announced }, phases) else none
  | .launch, (s, _) =>
    if s.stage = .announced then some ({ s with stage := .serving }, List.replicate workers .idle)
    else none
  | .sweep key, (s, phases) =>
    if known key then some ({ s with queue := s.queue.add key }, phases) else none
  | .due key, (s, phases) =>
    if key ∈ s.queue.view.waiting then some ({ s with queue := s.queue.fire key }, phases) else none
  | .wait n, (s, phases) =>
    some ({ s with world := { s.world with clock := s.world.clock + n } }, phases)
  | .cancel, (s, phases) => some ({ s with cancelled := true }, phases)
  | .stop, (s, phases) =>
    if s.stage = .serving ∧ s.cancelled = true then
      some ({ s with stage := .stopping, handler := s.handler.stop }, phases)
    else none
  | .shut, (s, phases) =>
    if s.stage = .stopping then
      some ({ s with stage := .draining, queue := s.queue.shutDown }, phases)
    else none
  | .drained, (s, phases) =>
    if s.stage = .draining ∧ s.queue.drained = true then some ({ s with stage := .joining }, phases)
    else none
  | .joined, (s, phases) =>
    if s.stage = .joining ∧ phases.all (fun φ => φ matches .gone) = true then
      some ({ s with stage := .finished }, phases)
    else none
  | .work i n env, (s, phases) =>
    match phases.drop i with
    | [] => none
    | φ :: rest =>
      match Phase.turns reconcile env n s φ with
      | none => none
      | some (s', φ') => some (s', phases.take i ++ φ' :: rest)

/-- A rota from the start of `Run`. -/
def playRota : List Duty → Site Q × List Phase → Option (Site Q × List Phase)
  | [], c => some c
  | duty :: duties, c =>
    match duty.play reconcile known workers c with
    | none => none
    | some next => playRota duties next

end Play

/-- The plant with workers in these phases. -/
def plant (reconcile : ReconcileFunc) (c : Site Q × List Phase) : Plant Q :=
  ⟨c.1, c.2.map (Phase.view reconcile)⟩

theorem runs_of_turns {ps qs : List Phase} {n : Nat}
    (h : Phase.turns reconcile env n s φ = some (s', φ')) :
    ManagerRuns H reconcile d known workers (plant reconcile (s, ps ++ φ :: qs))
      (plant reconcile (s', ps ++ φ' :: qs)) := by
  induction n generalizing s φ with
  | zero =>
    cases h
    exact .refl
  | succ n ih =>
    unfold Phase.turns at h
    split at h
    · cases h
    · rename_i s₁ φ₁ hturn
      refine .head (.work ?_) (ih h)
      simp only [plant, List.map_append, List.map_cons]
      exact .move _ _ (turns_of_turn hturn).moves

variable [DecidablePred known] {c c' : Site Q × List Phase}

theorem runs_of_duty {duty : Duty} (h : duty.play reconcile known workers c = some c') :
    ManagerRuns H reconcile d known workers (plant reconcile c) (plant reconcile c') := by
  obtain ⟨s, phases⟩ := c
  cases duty with
  | sync =>
    obtain ⟨hstage, ⟨⟩⟩ := Option.ite_none_right_eq_some.mp h
    exact .single (.pass _ (.synced hstage))
  | announce =>
    obtain ⟨hstage, ⟨⟩⟩ := Option.ite_none_right_eq_some.mp h
    exact .single (.pass _ (.onCacheSync hstage))
  | launch =>
    obtain ⟨hstage, ⟨⟩⟩ := Option.ite_none_right_eq_some.mp h
    refine .single ?_
    have hstep : ManagerStep H reconcile d known workers ⟨s, phases.map (Phase.view reconcile)⟩ _ :=
      .launched _ hstage
    simpa [plant, Service.launch, Phase.view, Phase.rest, service] using hstep
  | sweep key =>
    obtain ⟨hknown, ⟨⟩⟩ := Option.ite_none_right_eq_some.mp h
    exact .single (.pass _ (.sweep s hknown))
  | due key =>
    obtain ⟨hdue, ⟨⟩⟩ := Option.ite_none_right_eq_some.mp h
    exact .single (.pass _ (.due hdue))
  | wait n =>
    cases h
    refine .single (.pass _ (.dispatch (.env _ _ _ ⟨_, ?_, rfl⟩)))
    exact Int.le_add_of_nonneg_right (Int.natCast_nonneg n)
  | cancel =>
    cases h
    exact .single (.pass _ (.cancel s))
  | stop =>
    obtain ⟨hstage, ⟨⟩⟩ := Option.ite_none_right_eq_some.mp h
    exact .single (.pass _ (.stop hstage.1 hstage.2))
  | shut =>
    obtain ⟨hstage, ⟨⟩⟩ := Option.ite_none_right_eq_some.mp h
    exact .single (.pass _ (.shut hstage))
  | drained =>
    obtain ⟨hstage, ⟨⟩⟩ := Option.ite_none_right_eq_some.mp h
    exact .single (.pass _ (.drained hstage.1 hstage.2))
  | joined =>
    obtain ⟨hstage, ⟨⟩⟩ := Option.ite_none_right_eq_some.mp h
    refine .single (.joined hstage.1 fun w hw => ?_)
    obtain ⟨φ, hφ, rfl⟩ := List.mem_map.mp hw
    have hgone := List.all_eq_true.mp hstage.2 φ hφ
    cases φ with
    | gone => exact ⟨false, rfl⟩
    | _ => cases hgone
  | work i n env =>
    dsimp only [Duty.play] at h
    split at h
    · cases h
    · rename_i φ rest hdrop
      split at h
      · cases h
      · rename_i s' φ' hturns
        cases h
        have hphases : phases = phases.take i ++ φ :: rest := by
          rw [← hdrop, List.take_append_drop]
        nth_rewrite 1 [hphases]
        exact runs_of_turns hturns

/-- A rota is a run. -/
theorem runs_of_rota {duties : List Duty}
    (h : playRota reconcile known workers duties c = some c') :
    ManagerRuns H reconcile d known workers (plant reconcile c) (plant reconcile c') := by
  induction duties generalizing c with
  | nil =>
    cases h
    exact .refl
  | cons duty duties ih =>
    unfold playRota at h
    split at h
    · cases h
    · rename_i next hnext
      exact (runs_of_duty hnext).trans (ih h)

namespace Shift

open Controller.Scenario RuleRaven.Scenario

/-- The queue of the manager. -/
abbrev jobs : Queue ResourceKey := workQueue ResourceKey

/-- A manager that watches all jobs with one worker. -/
def watching : Manager := ⟨⟨[], ["jobs"]⟩, newEventHandler [], 1⟩

def other : ResourceKey := ⟨"Job", "ns", "m", "v"⟩

/-- Two jobs are about. -/
def seen (key : ResourceKey) : Prop := key = (jobCall 0 1).key ∨ key = other

instance : DecidablePred seen := fun _ => inferInstanceAs (Decidable (_ ∨ _))

/-- The API server is not reachable. -/
def unreachableServer : Env :=
  { (jobCall 0 1).env with get := fun _ _ _ => .error (.other "timeout") }

/-- One job is reconciled. The other one fails, and is added again while a worker is at it. -/
def morning : List Duty :=
  [.sync, .announce, .launch, .sweep (jobCall 0 1).key, .work 0 12 (jobCall 0 1).env, .sweep other,
    .sweep (jobCall 0 1).key, .work 0 1 unreachableServer, .sweep other,
    .work 0 5 unreachableServer]

/-- `Run` is asked to end, while both jobs are queued. -/
def evening : List Duty := morning ++ [.cancel, .stop, .shut]

/-- `Run` ends. -/
def night : List Duty := [.work 0 16 (jobCall 0 1).env, .drained, .joined]

def work : ReconcileFunc := notifying.reconcile keepingHasher

/-- What one worker does with the two jobs. -/
abbrev Works (c c' : Plant jobs) : Prop := ManagerRuns keepingHasher work hooked seen 1 c c'

def spend (duties : List Duty) (c : Site jobs × List Phase) : Option (Site jobs × List Phase) :=
  playRota work seen 1 duties c

/-- The start of `Run`. -/
def dawn : Site jobs × List Phase := ((watching.begin jobs noon).state, [])

theorem works_of_spend {P : Site jobs × List Phase → Bool} {duties : List Duty}
    {c : Site jobs × List Phase} (h : (spend duties c).any P = true) :
    ∃ c', Works (plant work c) (plant work c') ∧ P c' = true := by
  obtain ⟨c', hplay, hP⟩ := (Option.any_eq_true _ _).mp h
  exact ⟨c', runs_of_rota hplay, hP⟩

end Shift

end RuleRaven.Kube
