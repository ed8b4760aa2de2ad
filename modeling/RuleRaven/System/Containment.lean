import RuleRaven.System.Provenance
import RuleRaven.System.Schedule

namespace RuleRaven

open Framework Kube Controller Notify Provider

/-- A provider answers through its client: whatever the HTTP exchange was, the reply is what the
client made of it. -/
def Answered (L : Library) (client : ProviderSlot → Client) : (op : Op) → op.Reply → Prop
  | .evaluate slot request, reply => ∃ outcome : Except ProviderError EvaluationResponse,
      ((client slot).evaluate L request).Yields outcome ∧
        reply = outcome.mapError ProviderError.toErr
  | _, _ => True

variable {ι : Type}

/-- Every worker reaches its providers through its clients. -/
def Mediated (L : Library) (clients : ι → ProviderSlot → Client) (trace : List (Event ι)) : Prop :=
  ∀ e ∈ trace, Answered L (clients e.worker) e.op e.reply

/-- Every text of an evaluation is one that some worker's reconciler trusts. -/
def Contained (H : Hasher) (L : Library) (clients : ι → ProviderSlot → Client)
    (tasks : ι → Task → Prop) (e : Evaluation) : Prop :=
  ∃ i r key, tasks i (.reconcile r key) ∧
    ∀ text ∈ e.texts, Reconciler.Trusted H L r (clients i) text

/-- A response that a client has reported, if the clients are in between. -/
def Reported (L : Library) (clients : ι → ProviderSlot → Client) (i : ι) (slot : ProviderSlot)
    (response : EvaluationResponse) (w : World ι) : Prop :=
  Mediated L clients w.trace →
    ∃ request, (clients i slot).endpoint.Reports L request response

section Steps

variable {H : Hasher} {L : Library} {clients : ι → ProviderSlot → Client}
  {tasks : ι → Task → Prop} {i : ι} {w : World ι}

theorem Mediated.of_append {before after : List (Event ι)}
    (h : Mediated L clients (before ++ after)) : Mediated L clients before :=
  fun e he => h e (List.mem_append_left _ he)

theorem stable_mediated (P : Prop) : Stable i fun w => Mediated L clients w.trace → P := by
  intro w w' hrely h hmediated
  obtain ⟨others, htrace, -⟩ := hrely.trace
  rw [htrace] at hmediated
  exact h hmediated.of_append

/-- What the clients leave of the responses, in every evaluation. -/
def Confined (H : Hasher) (L : Library) (clients : ι → ProviderSlot → Client)
    (tasks : ι → Task → Prop) (w : World ι) : Prop :=
  Mediated L clients w.trace → ∀ e ∈ w.store.evaluations.rows, Contained H L clients tasks e

theorem Confined.quiet (hw : Confined H L clients tasks w) {op : Op} {reply : op.Reply}
    {s' : Store} (hevaluations : s'.evaluations = w.store.evaluations) :
    Confined H L clients tasks (w.extend i op reply s') := by
  intro hmediated e he
  apply hw hmediated.of_append
  simpa [World.extend, hevaluations] using he

/-- A commit adds the texts of what was decided. -/
theorem Confined.commit (hw : Confined H L clients tasks w) {r : Reconciler} {key : ResourceKey}
    (htask : tasks i (.reconcile r key)) {incident : Incident} {created : Bool}
    {p : Reconciler.Pending} (hp : Reconciler.Arises H r key p) {decided : Reconciler.Decided}
    (hdecided : Mediated L clients w.trace → Reconciler.Decides H r p.result
      (fun slot response => ∃ request, (clients i slot).endpoint.Reports L request response)
      decided) {reply : Except Err Unit} {s' : Store}
    (hanswer : StoreAnswer w.store
      (.commit (r.commitRequest H incident created p.snapshot p.result decided p.now)) reply s') :
    Confined H L clients tasks (w.extend i
      (.store (.commit (r.commitRequest H incident created p.snapshot p.result decided p.now)))
      reply s') := by
  intro hmediated e he
  have hbefore := hmediated.of_append
  generalize hrequest : r.commitRequest H incident created p.snapshot p.result decided p.now =
    request at hanswer he
  have hwrote := hanswer.wrote
  cases hwrote with
  | nothing => exact hw hbefore e he
  | finalize hop => cases hop
  | commit hcommitted =>
    have hrows : e ∈ w.store.evaluations.rows ∨ e = request.evaluation.toDocument := by
      have he : e ∈ s'.evaluations.rows := he
      simpa [hcommitted.evaluations] using he
    rcases hrows with hold | rfl
    · exact hw hbefore e hold
    · subst hrequest
      obtain ⟨hdecision, hanswers, haudit⟩ := (hdecided hbefore).trusted hp.trusts
      refine ⟨i, r, key, htask, fun text htext => ?_⟩
      simp only [Evaluation.texts, Evaluation.toDocument, Reconciler.commitRequest,
        List.mem_append] at htext
      rcases htext with (htext | htext) | htext
      · exact hdecision text htext
      · cases hsome : decided.answers with
        | none => simp [hsome] at htext
        | some answers => exact hanswers answers hsome text (by simpa [hsome] using htext)
      · cases hsome : decided.audit with
        | none => simp [hsome] at htext
        | some audit => exact haudit audit hsome text (by simpa [hsome] using htext)

/-- What a worker is told by a provider, its client reports. -/
theorem keeps_ask (slot : ProviderSlot) (request : EvaluationRequest) :
    Keeps (fun _ _ _ => True) (Confined H L clients tasks) i
      (fun reply v => ∀ response, reply = .ok response → Reported L clients i slot response v)
      (Eff.evaluate slot request) w := by
  refine keeps_perform (stable_const i True) (fun v reply s' hinv _ _ hanswer => ?_) trivial
  obtain rfl : s' = v.store := hanswer
  refine ⟨hinv.quiet rfl, fun response hreply hmediated => ?_⟩
  have hanswered := hmediated _ (List.mem_append_right _ (List.mem_singleton_self _))
  obtain ⟨outcome, hyields, houtcome⟩ := hanswered
  cases outcome with
  | error err =>
    rw [hreply] at houtcome
    cases houtcome
  | ok reported =>
    rw [hreply] at houtcome
    cases houtcome
    exact ⟨request, hyields.returns ((clients i slot).evaluate_returns L request) response rfl⟩

theorem keeps_confined {task : Task} (htask : tasks i task) :
    Keeps (fun _ _ _ => True) (Confined H L clients tasks) i (fun _ _ => True) (task.prog H) w := by
  have hstore : ∀ v op reply s', (∀ request, op ≠ .commit request) →
      Confined H L clients tasks v → StoreAnswer v.store op reply s' →
      Confined H L clients tasks (v.extend i (.store op) reply s') :=
    fun v op reply s' hop hv hanswer => hv.quiet (hanswer.wrote.quiet hop).1
  cases task with
  | dispatch d =>
    refine keeps_task (.dispatch d) (fun v op reply _ _ hv => hv.quiet rfl) ?_
    intro v op reply s' hop _ hv hanswer
    refine hstore v op reply s' ?_ hv hanswer
    rintro request rfl
    cases hop with
    | dispatch d h => exact h
  | reconcile r key =>
    have hcall : ∀ op v, (∀ o, op = .store o → ∀ request, o ≠ .commit request) →
        Keeps (fun _ _ _ => True) (Confined H L clients tasks) i (fun _ _ => True)
          (Prog.perform op) v :=
      fun op v hop => keeps_call (fun v op reply _ _ hv => hv.quiet rfl)
        (fun v op reply s' hop _ hv hanswer => hstore v op reply s' hop hv hanswer) op v hop
    refine keeps_bind (Q := fun _ _ => True) ?_ fun _ _ _ => keeps_ret trivial
    refine Reconciler.safe_issuesWith (R := Reported L clients i) ?_
      (fun slot request v => keeps_ask slot request) fun op v hop => ?_
    · intro op v hout
      apply hcall
      rintro o rfl
      exact hout.elim
    · cases hop with
      | other h hne =>
        apply hcall
        rintro o ⟨⟩
        exact hne
      | commit incident created hp hdecided =>
        refine keeps_perform (stable_mediated _) (fun v reply s' hinv hv _ hanswer =>
          ⟨hinv.commit htask hp hv hanswer, trivial⟩) fun hmediated => ?_
        exact hdecided.mono fun slot response hreported => hreported hmediated

end Steps

/-- In every run in which the workers reach their providers through the clients, whatever the
providers send, every evaluation that is committed contains nothing but texts that the code, the
configuration and the rubric give, digests, and names of the requested model. -/
theorem provider_text_contained (H : Hasher) (L : Library) (clients : ι → ProviderSlot → Client)
    (tasks : ι → Task → Prop) (t : Time) (c : Framework.Config ι Op Op.Reply Unit (World ι))
    (hrun : Runs H tasks (fun _ _ _ => True) (initial ι t) c)
    (hmediated : Mediated L clients c.state.trace) :
    ∀ e ∈ c.state.store.evaluations.rows, ∃ i r key, tasks i (.reconcile r key) ∧
      ∀ text ∈ e.texts, Reconciler.Trusted H L r (clients i) text := by
  have hconfined : Confined H L clients tasks c.state := by
    refine runs_keep ?_ (fun _ _ _ hw => hw) (fun _ _ hw _ => hw) ?_ hrun
    · intro t hmediated e he
      simp at he
    · exact fun i task w htask _ _ => keeps_confined htask
  exact hconfined hmediated

namespace Scenario

open Controller.Scenario

/-- The members of a response: a decision for each question, with the model dated. -/
def decisions : Document := .obj
  [("model", .str "jev-latest-20240601"),
    ("usage", .obj [("input_tokens", .num (.ofInt 120)), ("output_tokens", .num (.ofInt 7))]),
    ("answers", .obj
      [("incident_family", .obj
          [("type", .str "choice"), ("choice", .str "infrastructure"),
            ("confidence", .num (.ofInt 1)),
            ("probabilities", .obj ([("application", 0), ("configuration", 0), ("dependency", 0),
              ("infrastructure", 1), ("security", 0), ("unknown", 0)].map fun entry =>
                (entry.1, .num (.ofInt entry.2))))]),
        ("likely_transient", .obj [("type", .str "noul"), ("noul", .num (.ofInt 0))]),
        ("operational_impact", .obj
          [("type", .str "score"), ("score", .num (.ofInt 1)), ("confidence", .num (.ofInt 1)),
            ("legend", .obj
              [("0", .str "No current user-visible impact"),
                ("1", .str "Limited degradation or a working workaround"),
                ("2", .str "Material degradation affecting multiple users or a critical workload"),
                ("3", .str "Broad outage, data-loss risk, or security impact")]),
            ("probabilities", .obj ([("0", 0), ("1", 1), ("2", 0), ("3", 0)].map fun entry =>
              (entry.1, .num (.ofInt entry.2))))]),
        ("requires_immediate_attention", .obj
          [("type", .str "noul"), ("noul", .num (.ofInt 0))])])]

/-- A library that knows one body, and reads everything else as a string. -/
def shortLibrary : Library where
  parse bytes := if bytes.size = 0 then .ok decisions else .ok (.str "state")
  marshal _ := "\"state\""
  sum256 _ := Vector.replicate 32 0
  parseTime _ := none
  parseURL _ := some ("https", "api.typesafe.ai")

def typeSafe : Client := .jev
  { name := "typesafe"
    url := "https://api.typesafe.ai/v1/systemone"
    model := "jev-latest"
    credential := "secret"
    retry := ⟨1, 1000000000, 1000000000, 0, 0, none⟩
    limits := ⟨65536, 65536, 0⟩
    mode := .typeSafe }

/-- An endpoint that answers every request with the body that the library knows. -/
def endpointReply : (op : WebOp) → Unit → op.Reply × Unit
  | .now, _ => (noon, ())
  | .ctxErr, _ => (none, ())
  | .send _, _ => (.ok ⟨200, 0, fun _ => "request-7", .ok ByteArray.empty⟩, ())
  | .sleep _, _ => (none, ())

/-- A reconciler that asks this provider. -/
def triaging : Reconciler := { notifying with primary := "typesafe" }

def mountWarning : Object := .event
  { metadata := metadata, type := "Warning", reason := "FailedMount", message := "no volume",
    involvedUID := "v", count := 3, eventTime := noon }

/-- The Event is there, and its provider answers. -/
def triaged : Env :=
  { world 0 (some mountWarning) with
    evaluate := fun _ request => (Prog.run endpointReply (typeSafe.evaluate shortLibrary request)
      ()).1.mapError ProviderError.toErr }

/-- The reply to a provider call is the response that was read at the endpoint. -/
def fromEndpoint (e : RuleRaven.Event Nat) : Bool :=
  match e with
  | ⟨_, .evaluate slot request, .ok response, _, _, _⟩ =>
    match triaged.evaluate slot request with
    | .ok read => decide (response = read)
    | .error _ => false
  | ⟨_, .evaluate _ _, .error _, _, _, _⟩ => false
  | _ => true

theorem answered_of_fromEndpoint {e : RuleRaven.Event Nat} (h : fromEndpoint e = true) :
    Answered shortLibrary (fun _ => typeSafe) e.op e.reply := by
  obtain ⟨worker, op, reply, clock, before, after⟩ := e
  cases op with
  | evaluate slot request =>
    refine ⟨_, Prog.yields_run endpointReply _ (), ?_⟩
    cases reply with
    | error err => cases h
    | ok response =>
      simp only [fromEndpoint] at h
      split at h
      · rename_i read hread
        rw [of_decide_eq_true h]
        exact hread.symm
      · cases h
  | _ => trivial

end Scenario

open Scenario Controller.Scenario

/-- A Warning Event is triaged by a provider that was reached through its client. -/
theorem triaged_event_contained :
    ∃ c, Runs checksumHasher (fun _ _ => True) (fun _ _ _ => True) (initial Nat noon) c ∧
      Mediated shortLibrary (fun _ _ => typeSafe) c.state.trace ∧
      (c.state.store.evaluations.rows.map fun e => (e.decision.summary,
        e.providerAudit.map ProviderAudit.resolvedModel)) =
        [("Provider evidence classifies the incident as infrastructure",
          some "jev-latest-20240601")] ∧
      ∀ e ∈ c.state.store.evaluations.rows, ∃ (_ : Nat) (r : Reconciler) (_ : ResourceKey),
        True ∧ ∀ text ∈ e.texts,
          Reconciler.Trusted checksumHasher shortLibrary r (fun _ => typeSafe) text := by
  have hfacts : (play checksumHasher (fun _ _ => True) (fun _ _ _ => true)
      [.start 0 (.reconcile triaging ⟨"Event", "ns", "n", "u"⟩), .calls 0 20 triaged none]
      (initial Nat noon)).any (fun c => c.state.trace.all fromEndpoint &&
        decide ((c.state.store.evaluations.rows.map fun e => (e.decision.summary,
          e.providerAudit.map ProviderAudit.resolvedModel)) =
          [("Provider evidence classifies the incident as infrastructure",
            some "jev-latest-20240601")])) = true := by
    decide +kernel
  obtain ⟨c, hplay, hchecks⟩ := (Option.any_eq_true _ _).mp hfacts
  obtain ⟨htrace, hrows⟩ := Bool.and_eq_true_iff.mp hchecks
  have hrun := steps_restrict_mono (fun _ _ _ _ => trivial) (runs_of_play hplay)
  have hmediated : Mediated shortLibrary (fun _ _ => typeSafe) c.state.trace :=
    fun e he => answered_of_fromEndpoint (List.all_eq_true.mp htrace e he)
  exact ⟨c, hrun, hmediated, of_decide_eq_true hrows,
    provider_text_contained checksumHasher shortLibrary (fun _ _ => typeSafe) (fun _ _ => True)
      noon c hrun hmediated⟩

end RuleRaven
