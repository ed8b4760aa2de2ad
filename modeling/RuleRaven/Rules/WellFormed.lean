import RuleRaven.Rules.Maturity

namespace RuleRaven.Rules

open Framework

/-- The namespace or a label is ignored. A selector without a value asks for the label only. -/
def Options.Ignores (o : Options) (s : Snapshot) : Prop :=
  s.source.namespace ∈ o.ignoredNamespaces ∨
    ∃ selector ∈ o.ignoredLabels, ∃ actual,
      s.labels.lookup (cut selector '=').1 = some actual ∧
        ((cut selector '=').2.2 = true → actual = (cut selector '=').2.1)

theorem ignoredReason_newEngine (o : Options) (s : Snapshot) :
    ((newEngine o).ignoredReason s).isSome = true ↔ o.Ignores s := by
  rw [Engine.ignoredReason_isSome]
  unfold newEngine Options.Ignores
  simp only [(sortSlice_perm _ _).mem_iff]

/-- There is an open incident that a quiet snapshot would resolve. -/
def IsOpen (previous : Option Incident) : Prop := ∃ i, previous = some i ∧ i.status = .open

/-- A condition of a type and status, and with a reason where one is asked for, since a time. -/
def Tells (conditionType status reason : String) (c : Condition) : Prop :=
  c.type = conditionType ∧ c.status = status ∧ (reason = "" ∨ c.reason = reason) ∧
    c.lastTransitionTime ≠ 0

/-- A condition of a workload that is unavailable, since a time. -/
def TellsUnavailable (c : Condition) : Prop :=
  c.type ∈ ["Available", "Ready", "Progressing"] ∧ c.status = "False" ∧ c.lastTransitionTime ≠ 0

/-- The duration has passed since the time. That between two times does not go below the lowest
duration, which has always passed. -/
def Passed (d : Duration) (now t : Time) : Prop := t.add d ≤ now ∨ d.toInt = -2 ^ 63

/-- The first condition to tell something has told it for the duration. -/
def ToldFor (tells : Condition → Prop) (d : Duration) (now : Time) (conditions : List Condition) :
    Prop :=
  ∃ before c after, conditions = before ++ c :: after ∧ (∀ b ∈ before, ¬tells b) ∧ tells c ∧
    Passed d now c.lastTransitionTime

namespace Engine

variable (e : Engine) (now : Time)

/-- The six rules, each with the match that it reports, told by the facts of the snapshot. -/
inductive Holds (s : Snapshot) : Match → Prop
  | podCrashLoop (hkind : equalFold s.source.kind "Pod" = true)
      (hage : ToldFor (Tells "Ready" "False" "") e.options.minimumAge now s.conditions)
      (hloops : ∃ c ∈ s.containers, e.crashLoops c = true) :
      Holds s ⟨"pod-crash-loop", "one or more containers are crash looping",
        if s.containers.any e.crashLoopsCritically then .critical else .warning⟩
  | podUnschedulable (hkind : equalFold s.source.kind "Pod" = true)
      (hage : ToldFor (Tells "PodScheduled" "False" "Unschedulable") e.options.minimumAge now
        s.conditions) :
      Holds s ⟨"pod-unschedulable", "pod has remained unschedulable", .warning⟩
  | imagePullFailure (hkind : equalFold s.source.kind "Pod" = true)
      (hage : ToldFor (Tells "Ready" "False" "") e.options.minimumAge now s.conditions)
      (hpull : ∃ c ∈ s.containers, c.state = "waiting" ∧
        c.reason ∈ ["ErrImagePull", "ImagePullBackOff"]) :
      Holds s ⟨"image-pull-failure", "one or more containers cannot pull their image", .warning⟩
  | failedJob (job : JobState) (hjob : s.job = some job)
      (hkind : equalFold s.source.kind "Job" = true)
      (hfailed : (∃ c ∈ s.conditions, c.type = "Failed" ∧ c.status = "True") ∨
        (job.backoffLimit ≤ job.failed ∧ 1 ≤ job.failed)) :
      Holds s ⟨"job-failed", "job has failed", .critical⟩
  | workloadUnavailable (state : WorkloadState) (hstate : s.workload = some state)
      (hkind : toLower s.source.kind ∈ ["deployment", "statefulset", "daemonset"])
      (hdesired : 0 < state.desired)
      (havailable : state.available < state.desired) (hunavailable : 0 < state.unavailable)
      (hage : ToldFor TellsUnavailable e.options.minimumAge now s.conditions) :
      Holds s ⟨"workload-unavailable", "workload has unavailable replicas",
        if state.available = 0 then .critical else .warning⟩
  | warningEvent (event : EventState) (hevent : s.event = some event)
      (hkind : equalFold s.source.kind "Event" = true)
      (htype : equalFold event.type "Warning" = true)
      (hrecent : 0 < e.options.eventQuietPeriod → event.lastObserved ≠ 0 →
        now < event.lastObserved.add e.options.eventQuietPeriod)
      (hreason : event.reason ∈ semanticWarningReasons) :
      Holds s ⟨"warning-event", "selected Warning Event requires semantic triage", .warning⟩

variable {e now} {s : Snapshot} {m : Match}

theorem aged_iff {t : Time} : e.aged now t = true ↔ Passed e.options.minimumAge now t := by
  have hhi := e.options.minimumAge.toInt_lt
  have hlo := e.options.minimumAge.le_toInt
  have hage : ∀ t u d : Int, -2 ^ 63 ≤ d → d < 2 ^ 63 →
      (¬max (-2 ^ 63) (min (2 ^ 63 - 1) (u - t)) < d ↔ t + d ≤ u ∨ d = -2 ^ 63) := by omega
  simp only [aged, Bool.not_eq_true', decide_eq_false_iff_not, Int64.lt_iff_toInt_lt,
    Time.sub_toInt, Passed, Time.add]
  exact hage t now _ hlo hhi

/-- What the search for a condition finds, and how old it is. -/
theorem any_aged_iff {p : Condition → Bool} {tells : Condition → Prop}
    (hp : ∀ c, p c = true ↔ tells c) {conditions : List Condition} :
    ((conditions.find? p).map Condition.lastTransitionTime).any (e.aged now) = true ↔
      ToldFor tells e.options.minimumAge now conditions := by
  rw [Option.any_map, Option.any_eq_true]
  constructor
  · rintro ⟨c, hfound, haged⟩
    obtain ⟨hc, before, after, hsplit, hbefore⟩ := List.find?_eq_some_iff_append.mp hfound
    refine ⟨before, c, after, hsplit, fun b hb => ?_, (hp c).mp hc, aged_iff.mp haged⟩
    rw [← hp, Bool.not_eq_true]
    simpa using hbefore b hb
  · rintro ⟨before, c, after, hsplit, hbefore, hc, hpassed⟩
    refine ⟨c, List.find?_eq_some_iff_append.mpr ⟨(hp c).mpr hc, before, after, hsplit, ?_⟩,
      aged_iff.mpr hpassed⟩
    intro b hb
    rw [Bool.not_eq_true', ← Bool.not_eq_true, hp]
    exact hbefore b hb

theorem conditionTransition_aged {conditions : List Condition}
    {conditionType status reason : String} :
    (conditionTransition conditions conditionType status reason).any (e.aged now) = true ↔
      ToldFor (Tells conditionType status reason) e.options.minimumAge now conditions := by
  refine any_aged_iff fun c => ?_
  simp only [Tells, Time.isZero, Bool.and_eq_true, Bool.or_eq_true, beq_iff_eq, Bool.not_eq_true',
    beq_eq_false_iff_ne, and_assoc]

theorem tellsUnavailable_iff (c : Condition) :
    tellsUnavailable c = true ↔ TellsUnavailable c := by
  simp only [tellsUnavailable, TellsUnavailable, Time.isZero, Bool.and_eq_true, Bool.or_eq_true,
    beq_iff_eq, Bool.not_eq_true', beq_eq_false_iff_ne, List.mem_cons, List.not_mem_nil, or_false]
  tauto

theorem unavailableTransition_aged {conditions : List Condition} :
    (unavailableTransition conditions).any (e.aged now) = true ↔
      ToldFor TellsUnavailable e.options.minimumAge now conditions :=
  any_aged_iff tellsUnavailable_iff

theorem any_pullFails_iff {containers : List ContainerState} :
    containers.any pullFails = true ↔ ∃ c ∈ containers, c.state = "waiting" ∧
      c.reason ∈ ["ErrImagePull", "ImagePullBackOff"] := by
  simp [List.any_eq_true, pullFails]

theorem eventIsQuiet_eq_false {event : EventState} (hevent : s.event = some event) :
    e.eventIsQuiet now s = false ↔
      (0 < e.options.eventQuietPeriod → event.lastObserved ≠ 0 →
        now < event.lastObserved.add e.options.eventQuietPeriod) := by
  unfold eventIsQuiet
  rw [hevent]
  dsimp only
  by_cases hperiod : e.options.eventQuietPeriod ≤ 0
  · simp [hperiod, Int64.not_lt.mpr hperiod]
  · by_cases hzero : event.lastObserved = 0
    · simp [hzero, Time.isZero]
    · simp [hperiod, hzero, Time.isZero, Int64.not_le.mp hperiod]

theorem lacksReplicas_iff (state : WorkloadState) : lacksReplicas state = true ↔
    0 < state.desired ∧ state.available < state.desired ∧ 0 < state.unavailable := by
  simp only [lacksReplicas, Bool.not_eq_true', Bool.or_eq_false_iff, decide_eq_false_iff_not,
    Int32.not_le, and_assoc]

/-- The failures of a job reach its limit, and there is one at least. -/
theorem reaches_iff (job : JobState) :
    job.failed < (if job.backoffLimit < 1 then 1 else job.backoffLimit) ↔
      ¬(job.backoffLimit ≤ job.failed ∧ 1 ≤ job.failed) := by
  split_ifs with h
  · simp only [Int32.lt_iff_toInt_lt, Int32.le_iff_toInt_le] at h ⊢
    omega
  · simp only [Int32.lt_iff_toInt_lt, Int32.le_iff_toInt_le] at h ⊢
    omega

theorem mem_failedJob_iff : m ∈ failedJob s ↔
    ∃ job, s.job = some job ∧ equalFold s.source.kind "Job" = true ∧
      ((∃ c ∈ s.conditions, c.type = "Failed" ∧ c.status = "True") ∨
        (job.backoffLimit ≤ job.failed ∧ 1 ≤ job.failed)) ∧
      m = ⟨"job-failed", "job has failed", .critical⟩ := by
  unfold failedJob
  cases s.job with
  | none => simp
  | some job =>
    have hcondition : (s.conditions.any fun c => c.type == "Failed" && c.status == "True") = true ↔
        ∃ c ∈ s.conditions, c.type = "Failed" ∧ c.status = "True" := by
      simp [List.any_eq_true]
    dsimp only
    rw [← hcondition]
    cases equalFold s.source.kind "Job" with
    | false => simp
    | true =>
      cases s.conditions.any fun c => c.type == "Failed" && c.status == "True" with
      | true => simp
      | false =>
        by_cases hreaches : job.backoffLimit ≤ job.failed ∧ 1 ≤ job.failed
        · have hlt := (reaches_iff job).not_left.mpr hreaches
          simp [hlt, hreaches]
        · have hlt := (reaches_iff job).mpr hreaches
          simp [hlt, hreaches]

/-- The engine asks exactly these rules. -/
theorem mem_ruleMatches_iff : m ∈ e.ruleMatches now s ↔ e.Holds now s m := by
  rw [mem_ruleMatches, mem_podCrashLoop, mem_podUnschedulable, mem_imagePullFailure,
    mem_failedJob_iff, mem_workloadUnavailable, mem_warningEvent, crashLoopSeverity_eq,
    conditionTransition_aged, conditionTransition_aged, unavailableTransition_aged,
    any_pullFails_iff]
  constructor
  · rintro (⟨hkind, hage, hset, rfl⟩ | ⟨hkind, hage, rfl⟩ | ⟨hkind, hage, hpull, rfl⟩ |
      ⟨job, hjob, hkind, hfailed, rfl⟩ | ⟨state, hstate, hkind, hlacks, hage, rfl⟩ |
      ⟨event, hevent, hkind, htype, hquiet, hreason, rfl⟩)
    · have hloops : s.containers.any e.crashLoops = true := by
        by_contra h
        exact hset (if_neg h)
      rw [if_pos hloops]
      exact .podCrashLoop hkind hage (List.any_eq_true.mp hloops)
    · exact .podUnschedulable hkind hage
    · exact .imagePullFailure hkind hage hpull
    · exact .failedJob job hjob hkind hfailed
    · obtain ⟨hdesired, havailable, hunavailable⟩ := (lacksReplicas_iff state).mp hlacks
      exact .workloadUnavailable state hstate (of_decide_eq_true hkind) hdesired havailable
        hunavailable hage
    · exact .warningEvent event hevent hkind htype ((eventIsQuiet_eq_false hevent).mp hquiet)
        (List.contains_iff_mem.mp hreason)
  · intro h
    cases h with
    | podCrashLoop hkind hage hloops =>
      rw [if_pos (List.any_eq_true.mpr hloops)]
      refine .inl ⟨hkind, hage, ?_, rfl⟩
      split_ifs <;> decide
    | podUnschedulable hkind hage => exact .inr (.inl ⟨hkind, hage, rfl⟩)
    | imagePullFailure hkind hage hpull => exact .inr (.inr (.inl ⟨hkind, hage, hpull, rfl⟩))
    | failedJob job hjob hkind hfailed =>
      exact .inr (.inr (.inr (.inl ⟨job, hjob, hkind, hfailed, rfl⟩)))
    | workloadUnavailable state hstate hkind hdesired havailable hunavailable hage =>
      have hlacks := (lacksReplicas_iff state).mpr ⟨hdesired, havailable, hunavailable⟩
      exact .inr (.inr (.inr (.inr (.inl
        ⟨state, hstate, decide_eq_true hkind, hlacks, hage, rfl⟩))))
    | warningEvent event hevent hkind htype hrecent hreason =>
      exact .inr (.inr (.inr (.inr (.inr ⟨event, hevent, hkind, htype,
        (eventIsQuiet_eq_false hevent).mpr hrecent, List.contains_iff_mem.mpr hreason, rfl⟩))))

/-- Every rule reports at most one match, under its own ID. -/
theorem ruleMatches_sublist : ((e.ruleMatches now s).map Match.ruleID).Sublist ruleIDs := by
  have hcrash : ((e.podCrashLoop now s).map Match.ruleID).Sublist ["pod-crash-loop"] := by
    unfold podCrashLoop
    repeat' first | split | dsimp only
    all_goals simp
  have hschedule : ((e.podUnschedulable now s).map Match.ruleID).Sublist ["pod-unschedulable"] := by
    unfold podUnschedulable
    repeat' split
    all_goals simp
  have hpull : ((e.imagePullFailure now s).map Match.ruleID).Sublist ["image-pull-failure"] := by
    unfold imagePullFailure
    repeat' split
    all_goals simp
  have hjob : ((failedJob s).map Match.ruleID).Sublist ["job-failed"] := by
    unfold failedJob
    repeat' first | split | dsimp only
    all_goals simp
  have hworkload :
      ((e.workloadUnavailable now s).map Match.ruleID).Sublist ["workload-unavailable"] := by
    unfold workloadUnavailable
    repeat' split
    all_goals simp
  have hevent : ((e.warningEvent now s).map Match.ruleID).Sublist ["warning-event"] := by
    unfold warningEvent
    repeat' split
    all_goals simp
  simp only [ruleMatches, List.map_append]
  exact ((((hcrash.append hschedule).append hpull).append hjob).append hworkload).append hevent

/-- The matches in the order of the result. -/
def sortedMatches (e : Engine) (now : Time) (s : Snapshot) : List Match :=
  sortSlice (fun a b => a.ruleID < b.ruleID) (e.ruleMatches now s)

theorem mem_sortedMatches : m ∈ e.sortedMatches now s ↔ e.Holds now s m := by
  rw [← mem_ruleMatches_iff]
  exact (sortSlice_perm _ _).mem_iff

theorem sortedMatches_increasing :
    ((e.sortedMatches now s).map Match.ruleID).Pairwise (· < ·) := by
  have hless : ∀ a b : Match, decide (a.ruleID < b.ruleID) = true ↔ a.ruleID < b.ruleID :=
    fun _ _ => decide_eq_true_iff
  have hsorted := sortSlice_sorted_of_key Match.ruleID hless (e.ruleMatches now s)
  simp only [less_eq_false_iff Match.ruleID hless] at hsorted
  have hnodup : ((e.sortedMatches now s).map Match.ruleID).Nodup := by
    have hperm := (sortSlice_perm (fun a b => decide (a.ruleID < b.ruleID))
      (e.ruleMatches now s)).map Match.ruleID
    exact hperm.nodup_iff.mpr (List.Nodup.sublist ruleMatches_sublist (by decide))
  rw [List.pairwise_map]
  rw [List.Nodup, List.pairwise_map] at hnodup
  exact (hsorted.and hnodup).imp fun h => lt_of_le_of_ne h.1 h.2

theorem highestSeverity_max (first : Match) (rest : List Match) :
    ∀ m ∈ first :: rest,
      severityRank m.severity ≤ severityRank (highestSeverity first rest).severity := by
  induction rest generalizing first with
  | nil => simp [highestSeverity]
  | cons next rest ih =>
    have hstep : highestSeverity first (next :: rest) = highestSeverity
        (if severityRank first.severity < severityRank next.severity then next else first) rest :=
      rfl
    rw [hstep]
    split_ifs with hlt
    · have hnext := ih next
      intro m hm
      rcases List.mem_cons.mp hm with rfl | hm
      · exact hlt.le.trans (hnext next List.mem_cons_self)
      · exact hnext m hm
    · have hfirst := ih first
      have hle := hfirst first List.mem_cons_self
      intro m hm
      rcases List.mem_cons.mp hm with rfl | hm
      · exact hle
      · rcases List.mem_cons.mp hm with rfl | hm
        · exact (not_lt.mp hlt).trans hle
        · exact hfirst m (List.mem_cons_of_mem _ hm)

/-- A decision over matches: as severe as the severest, a page if there is a critical one. -/
structure Decides (matched : List Match) (d : Decision) : Prop where
  attained : ∃ m ∈ matched, m.severity = d.severity
  highest : ∀ m ∈ matched, severityRank m.severity ≤ severityRank d.severity
  page_iff : d.action = .page ↔ ∃ m ∈ matched, m.severity = .critical
  notify : d.action ≠ .page → d.action = .notify
  ruleIDs_eq : d.ruleIDs = matched.map Match.ruleID

/-- The match of a recovery. -/
def recovery : Match := ⟨"recovered", "previously open incident no longer matches", .info⟩

/-- The result for a snapshot that is not ignored. -/
structure WellFormed (e : Engine) (now : Time) (s : Snapshot) (previous : Option Incident)
    (result : Result) : Prop where
  increasing : (result.matched.map Match.ruleID).Pairwise (· < ·)
  matched_iff : ∀ m, m ∈ result.matched ↔
    e.Holds now s m ∨ (m = recovery ∧ (∀ m, ¬e.Holds now s m) ∧ IsOpen previous)
  noMatch_iff : result.disposition = .noMatch ↔ (∀ m, ¬e.Holds now s m) ∧ ¬IsOpen previous
  recovered_iff :
    (result.disposition = .terminal ∧
      ∃ d, result.decision = some d ∧ d.severity = .info ∧ d.action = .record) ↔
    (∀ m, ¬e.Holds now s m) ∧ IsOpen previous
  semantic_iff : (result.disposition = .semantic ∧ result.decision = none) ↔
    result.matched.map Match.ruleID = ["warning-event"]
  decided : (∃ m, e.Holds now s m) → result.matched.map Match.ruleID ≠ ["warning-event"] →
    result.disposition = .terminal ∧ ∃ d, result.decision = some d ∧ Decides result.matched d

theorem severityRank_critical (severity : Severity) :
    severity = .critical ↔ severityRank .critical ≤ severityRank severity := by
  cases severity <;> decide

theorem decisionFor_decides (first : Match) (rest : List Match) :
    Decides (first :: rest) (decisionFor first rest) := by
  have hmem := highestSeverity_mem first rest
  have hmax := highestSeverity_max first rest
  have haction : (decisionFor first rest).action =
      if (highestSeverity first rest).severity = .critical then .page else .notify := rfl
  refine ⟨⟨_, hmem, rfl⟩, hmax, ?_, ?_, rfl⟩
  · rw [haction]
    constructor
    · intro hpage
      split_ifs at hpage with hcritical
      exact ⟨_, hmem, hcritical⟩
    · rintro ⟨m, hm, hcritical⟩
      have hle := hmax m hm
      rw [hcritical] at hle
      exact if_pos ((severityRank_critical _).mpr hle)
  · rw [haction]
    split_ifs
    · exact fun h => absurd rfl h
    · exact fun _ => rfl

/-- The result for matches is well formed. -/
theorem matchedResult_wellFormed {first : Match} {rest : List Match} (previous : Option Incident)
    (h : e.sortedMatches now s = first :: rest) :
    WellFormed e now s previous (matchedResult first rest) := by
  have hholds : ∃ m, e.Holds now s m :=
    ⟨first, mem_sortedMatches.mp (h ▸ List.mem_cons_self)⟩
  have hsome : ¬∀ m, ¬e.Holds now s m := fun hnone => hholds.elim hnone
  have hlone : (rest = [] ∧ first.ruleID = "warning-event") ↔
      (first :: rest).map Match.ruleID = ["warning-event"] := by
    simp [and_comm]
  refine ⟨?_, ?_, ?_, ?_, ?_, ?_⟩
  · rw [matchedResult_matched, ← h]
    exact sortedMatches_increasing
  · intro m
    rw [matchedResult_matched, ← h, mem_sortedMatches]
    simp [hsome]
  · simp only [hsome, false_and, iff_false]
    rcases matchedResult_disposition first rest with hd | hd <;> simp [hd]
  · simp only [hsome, false_and, iff_false]
    rintro ⟨-, d, hd, -, haction⟩
    unfold matchedResult at hd
    split_ifs at hd
    cases hd
    have hdecides := decisionFor_decides first rest
    by_cases hpage : (decisionFor first rest).action = .page
    · rw [hpage] at haction
      cases haction
    · rw [hdecides.notify hpage] at haction
      cases haction
  · rw [matchedResult_matched, ← hlone]
    unfold matchedResult
    split_ifs with hwarning <;> simp [hwarning]
  · intro _ hother
    rw [matchedResult_matched] at hother ⊢
    unfold matchedResult
    rw [if_neg (hlone.not.mpr hother)]
    exact ⟨rfl, _, rfl, decisionFor_decides first rest⟩

/-- Without a match, the result is that of the previous incident. -/
theorem quietResult_wellFormed (previous : Option Incident) (h : e.sortedMatches now s = []) :
    WellFormed e now s previous ((recovered previous).getD { disposition := .noMatch }) := by
  have hnone : ∀ m, ¬e.Holds now s m := by
    intro m hm
    rw [← mem_sortedMatches, h] at hm
    cases hm
  by_cases hopen : IsOpen previous
  · obtain ⟨i, rfl, hstatus⟩ := hopen
    have hopen : IsOpen (some i) := ⟨i, rfl, hstatus⟩
    have hresult : (recovered (some i)).getD { disposition := .noMatch } = recoveredResult := by
      simp [recovered, hstatus]
    rw [hresult]
    refine ⟨List.pairwise_singleton _ _, ?_, ?_, ?_, ?_, ?_⟩
    · simp [recoveredResult, recovery, hnone, hopen]
    · simp [recoveredResult, hopen]
    · simp [recoveredResult, hnone, hopen]
    · simp [recoveredResult]
    · exact fun hm => absurd hm (by simpa using hnone)
  · have hresult : (recovered previous).getD { disposition := .noMatch } =
        { disposition := .noMatch } := by
      cases previous with
      | none => rfl
      | some i =>
        have hstatus : i.status ≠ .open := fun hstatus => hopen ⟨i, rfl, hstatus⟩
        simp [recovered, hstatus]
    rw [hresult]
    refine ⟨List.Pairwise.nil, ?_, ?_, ?_, ?_, ?_⟩
    · simp [hnone, hopen]
    · simp [hnone, hopen]
    · simp [hopen]
    · simp
    · exact fun hm => absurd hm (by simpa using hnone)

end Engine

/-- Every result of `Evaluate`: a suppression for what is ignored, and otherwise exactly the rules
that hold, with the decision they call for. -/
theorem evaluate_wellFormed (options : Options) (now : Time) (s : Snapshot)
    (previous : Option Incident) :
    (options.Ignores s →
      ((newEngine options).evaluate now s previous).disposition = .suppress ∧
      ∃ d, ((newEngine options).evaluate now s previous).decision = some d ∧
        d.action = .suppress) ∧
    (¬options.Ignores s → (newEngine options).WellFormed now s previous
      ((newEngine options).evaluate now s previous)) := by
  rw [← ignoredReason_newEngine]
  cases hignored : (newEngine options).ignoredReason s with
  | some reason =>
    unfold Engine.evaluate
    rw [hignored]
    exact ⟨fun _ => ⟨rfl, _, rfl, rfl⟩, fun h => absurd rfl h⟩
  | none =>
    refine ⟨fun h => absurd h Bool.false_ne_true, fun _ => ?_⟩
    unfold Engine.evaluate
    rw [hignored]
    dsimp only
    split
    · rename_i hnil
      exact Engine.quietResult_wellFormed previous hnil
    · rename_i first rest hcons
      exact Engine.matchedResult_wellFormed previous hcons

end RuleRaven.Rules
