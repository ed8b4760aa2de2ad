import RuleRaven.Framework.Trace
import RuleRaven.System.Walk
import RuleRaven.Controller.Scenario

namespace RuleRaven.Controller

open Framework Kube Rules

/-- The snapshots that a run passes to `UpsertSnapshot`, each with its incident. -/
def savedSnapshots (t : List (Sigma Op.Reply)) : List (String × Snapshot) :=
  t.filterMap fun event =>
    match event.1 with
    | .store (.snapshotsUpsert incidentID snapshot) => some (incidentID, snapshot)
    | _ => none

theorem mem_savedSnapshots {t : List (Sigma Op.Reply)} {incidentID : String} {snapshot : Snapshot}
    (h : (incidentID, snapshot) ∈ savedSnapshots t) :
    ∃ event ∈ t, event.1 = .store (.snapshotsUpsert incidentID snapshot) := by
  obtain ⟨event, hevent, hsaved⟩ := List.mem_filterMap.mp h
  refine ⟨event, hevent, ?_⟩
  split at hsaved
  · rename_i heq
    cases hsaved
    exact heq
  · cases hsaved

/-- The condition that the resolution of a quiet Event adds. -/
def elapsed : Condition :=
  { type := "QuietPeriodElapsed", status := "True", reason := "EventQuietPeriod" }

/-- The field that it comes to in the encoding. The zero time is written out. -/
def elapsedField : String × Json := ("conditions", .arr [elapsed.toJson "0001-01-01T00:00:00Z"])

theorem elapsedField_size : fieldSize elapsedField = 133 := by decide +kernel

/-- The bytes of a fingerprint, with its quotes. -/
def hashSize (s : Snapshot) : Nat := (Json.str s.contentHash).size

theorem strField_visible {name value : String} (h : value ≠ "") :
    strField name value = [(name, .str value)] := by
  unfold strField
  rw [if_neg h]
  rfl

/-- The size of a snapshot by its parts. -/
theorem parts_size (s : Snapshot) (observedAt : String) (event : Option Json)
    (conditions : List (String × Json)) {hash : String} (h : hash ≠ "") :
    (Json.obj (s.leading observedAt ++ conditions ++ s.trailing event ++
      strField "contentHash" hash)).size =
    ((s.leading observedAt ++ s.trailing event).map fieldSize).sum +
      (conditions.map fieldSize).sum + (Json.str "contentHash").size + (Json.str hash).size +
      3 := by
  have hfields : s.leading observedAt ++ conditions ++ s.trailing event ++
      strField "contentHash" hash ≠ [] := by
    simp [Snapshot.leading]
  rw [Json.size_obj hfields, strField_visible h]
  simp only [List.map_append, List.sum_append, List.map_cons, List.map_nil, List.sum_cons,
    List.sum_nil, fieldSize]
  omega

/-- A snapshot without conditions and the same one with the condition of a resolution: the
encoding of the second has one more field, and another fingerprint. -/
theorem size_elapsed {s : Snapshot} {encoded : Json} (hconditions : s.conditions = [])
    (h : s.toJson = some encoded) {hash : String} (hnew : hash ≠ "") (hold : s.contentHash ≠ "") :
    ∃ stored, ({ s with conditions := [elapsed], contentHash := hash } : Snapshot).toJson =
        some stored ∧
      stored.size + (Json.str s.contentHash).size =
        encoded.size + 133 + (Json.str hash).size := by
  obtain ⟨observedAt, conditions, event, hobserved, hnone, hevent, rfl⟩ :=
    Snapshot.toJson_eq_some.mp h
  rw [hconditions, show conditionsJson [] = some [] from rfl] at hnone
  cases hnone
  have hzero : elapsed.lastTransitionTime.format = some "0001-01-01T00:00:00Z" := by decide
  have hone : conditionsJson [elapsed] = some [elapsed.toJson "0001-01-01T00:00:00Z"] := by
    simp [conditionsJson, hzero]
  have hfield : listField "conditions" [elapsed.toJson "0001-01-01T00:00:00Z"] = [elapsedField] :=
    rfl
  have hnofield : listField "conditions" [] = [] := rfl
  refine ⟨_, Snapshot.toJson_eq_some.mpr ⟨observedAt, _, event, hobserved, hone, hevent, rfl⟩, ?_⟩
  have hstored := parts_size s observedAt event [elapsedField] hnew
  have hencoded := parts_size s observedAt event [] hold
  simp only [List.map_cons, List.map_nil, List.sum_cons, List.sum_nil, elapsedField_size]
    at hstored hencoded
  rw [hnofield, hencoded, hfield]
  exact (congrArg (· + (Json.str s.contentHash).size) hstored).trans (by omega)

namespace Reconciler

variable {H : Hasher} {r : Reconciler} {key : ResourceKey}

/-- What the store answers about an incident, and what is taken from it. -/
def Tells (reply : Except Err (Option Incident)) (previous : Option Incident) : Prop :=
  reply = .ok previous ∨
    previous = none ∧ ∃ err : Err, reply = .error err ∧ err.is .storeNotFound = true

/-- How a run begins that has found an object: with the object, the time of its observation, the
incident and the time of the rules. -/
structure Observes (H : Hasher) (r : Reconciler) (key : ResourceKey) (t : List (Sigma Op.Reply))
    (object : Object) (observed : Snapshot) (previous : Option Incident) (now engineNow : Time) :
    Prop where
  begins : ∃ (served : Served key.kind key.namespace key.name)
    (reply : Except Err (Option Incident)) (rest : List (Sigma Op.Reply)),
    served.val = object ∧ Tells reply previous ∧
    t = ⟨.kubeGet key.kind key.namespace key.name, .ok served⟩ :: ⟨.now, now⟩ ::
      ⟨.store (.incidentsFindOne r.clusterID (incidentKey H observed.source)), reply⟩ ::
      ⟨.now, engineNow⟩ :: rest
  resolved : Resolved key object
  normalized : r.normalizer.normalize H object now = .ok observed

section Traces

variable {t : List (Sigma Op.Reply)}

theorem resolve_does {object : Object} (h : Prog.Does (resolve key) t (.ok object)) :
    ∃ served : Served key.kind key.namespace key.name, served.val = object ∧
      Resolved key object ∧
      t = [⟨.kubeGet key.kind key.namespace key.name, .ok served⟩] := by
  unfold resolve at h
  split at h
  · cases h.2
  · split_ifs at h with hkind
    · cases h.2
    · obtain ⟨front, back, reply, rfl, hget, hback⟩ := Prog.does_bind.mp h
      rcases reply with (_ | text) | served
      · cases hback.2
      · cases hback.2
      · dsimp only at hback
        split_ifs at hback with huid
        · cases hback.2
        · obtain ⟨rfl, hobject⟩ := hback
          cases hobject
          exact ⟨served, rfl, resolved_served (by simpa using hkind) served (not_not.mp huid),
            (List.append_nil front).trans (Prog.does_perform.mp hget)⟩

theorem getIncident_does {clusterID incidentKey : String} {read : Except Err Incident}
    (h : Prog.Does (Mongo.getIncident clusterID incidentKey) t read) :
    (∀ previous, read = .ok previous →
      t = [⟨.store (.incidentsFindOne clusterID incidentKey), .ok (some previous)⟩]) ∧
    (∀ err : Err, read = .error err → err.is .storeNotFound = true →
      ∃ reply : Except Err (Option Incident), Tells reply none ∧
        t = [⟨.store (.incidentsFindOne clusterID incidentKey), reply⟩]) := by
  unfold Mongo.getIncident at h
  split_ifs at h
  · obtain ⟨-, rfl⟩ := h
    refine ⟨fun _ hread => (by cases hread), fun err herr hnone => ?_⟩
    cases herr
    cases hnone
  · obtain ⟨reply, rest, rfl, hrest⟩ := h
    rcases reply with err | _ | previous
    · obtain ⟨rfl, rfl⟩ := hrest
      refine ⟨fun _ hread => (by cases hread), fun wrapped hwrapped hnone => ?_⟩
      cases hwrapped
      exact ⟨.error err, .inr ⟨rfl, err, rfl, hnone⟩, rfl⟩
    · obtain ⟨rfl, rfl⟩ := hrest
      exact ⟨fun _ hread => (by cases hread), fun _ _ _ => ⟨.ok none, .inl rfl, rfl⟩⟩
    · obtain ⟨rfl, rfl⟩ := hrest
      refine ⟨fun found hfound => ?_, fun _ herr => by cases herr⟩
      cases hfound
      rfl

/-- A deletion is persisted at the time that the clock tells. -/
theorem observeDeletion_does {p : Pending}
    (h : Prog.Does (r.observeDeletion H key) t (.ok (.persist p))) :
    ∃ now, ⟨.now, now⟩ ∈ t ∧ p.snapshot = r.deletionSnapshot H key now := by
  obtain ⟨front, back, read, rfl, -, hback⟩ := Prog.does_bind.mp h
  cases read with
  | error err =>
    dsimp only at hback
    split_ifs at hback <;> cases hback.2
  | ok previous =>
    dsimp only at hback
    split_ifs at hback
    · cases hback.2
    · obtain ⟨now, rest, rfl, -, hp⟩ := hback
      cases hp
      exact ⟨now, by simp, rfl⟩

/-- What a run has seen that comes to persist something. -/
theorem observe_does {p : Pending} (h : Prog.Does (r.observe H key) t (.ok (.persist p))) :
    (∃ now, ⟨.now, now⟩ ∈ t ∧ p.snapshot = r.deletionSnapshot H key now) ∨
      ∃ object observed previous now engineNow,
        Observes H r key t object observed previous now engineNow ∧
        r.judge H observed previous now engineNow = .persist p := by
  unfold observe at h
  split at h
  · cases h.2
  obtain ⟨front, back, resolved, rfl, hresolve, hback⟩ := Prog.does_bind.mp h
  cases resolved with
  | error err =>
    left
    dsimp only at hback
    split_ifs at hback
    · obtain ⟨now, hnow, hdeletion⟩ := observeDeletion_does hback
      exact ⟨now, List.mem_append_right _ hnow, hdeletion⟩
    · cases hback.2
  | ok object =>
    right
    obtain ⟨served, hserved, hresolved, rfl⟩ := resolve_does hresolve
    obtain ⟨first, after, now, rfl, hnow, hafter⟩ := Prog.does_bind.mp hback
    obtain rfl := Prog.does_perform.mp hnow
    split at hafter
    · cases hafter.2
    · rename_i observed hobserved
      obtain ⟨middle, last, read, rfl, hread, hlast⟩ := Prog.does_bind.mp hafter
      cases read with
      | ok previous =>
        obtain ⟨engineNow, rest, rfl, -, hjudge⟩ := hlast
        have hfound := (getIncident_does hread).1 previous rfl
        rw [hfound]
        exact ⟨object, observed, some previous, now, engineNow,
          ⟨⟨served, _, rest, hserved, .inl rfl, rfl⟩, hresolved, hobserved⟩,
          (Except.ok.inj hjudge).symm⟩
      | error err =>
        dsimp only at hlast
        split_ifs at hlast with hnone
        · obtain ⟨engineNow, rest, rfl, -, hjudge⟩ := hlast
          obtain ⟨reply, htells, hfound⟩ := (getIncident_does hread).2 err rfl hnone
          rw [hfound]
          exact ⟨object, observed, none, now, engineNow,
            ⟨⟨served, reply, rest, hserved, htells, rfl⟩, hresolved, hobserved⟩,
            (Except.ok.inj hjudge).symm⟩
        · cases hlast.2

/-- The calls that save no other snapshot. -/
def saves (snapshot : Snapshot) : Op → Prop
  | .store (.snapshotsUpsert _ saved) => saved = snapshot
  | _ => True

theorem saves_of_asksProvider {snapshot : Snapshot} (op : Op) (h : asksProvider op) :
    saves snapshot op := by
  cases op <;> first | exact h.elim | trivial

theorem persist_saves (snapshot : Snapshot) (previous : Option Incident) (result : Rules.Result)
    (now : Time) : Prog.Only (saves snapshot) (r.persist H snapshot previous result now) :=
  persist_only (Mongo.upsertIncident_only _ trivial trivial trivial) fun _ _ =>
    record_only saves_of_asksProvider rfl trivial fun _ => trivial

/-- A snapshot that a run saves is the one that it has come to persist. -/
theorem saved_of_does {outcome : Except Err Controller.Result}
    (h : Prog.Does (r.reconcile H key) t outcome) {incidentID : String} {snapshot : Snapshot}
    (hsaved : (incidentID, snapshot) ∈ savedSnapshots t) :
    ∃ front back p, t = front ++ back ∧ Prog.Does (r.observe H key) front (.ok (.persist p)) ∧
      p.snapshot = snapshot := by
  obtain ⟨event, hevent, hop⟩ := mem_savedSnapshots hsaved
  obtain ⟨front, back, verdict, rfl, hobserve, h⟩ := Prog.does_bind.mp h
  -- the reads before do not save anything
  have hback : event ∈ back := by
    refine (List.mem_append.mp hevent).resolve_left fun hfront => ?_
    have hreads := hobserve.only (observe_only H r key) event hfront
    rw [hop] at hreads
    exact hreads
  rcases verdict with err | result | p
  · rw [h.1] at hback
    cases hback
  · rw [h.1] at hback
    cases hback
  · obtain ⟨middle, last, persisted, rfl, hpersist, hlast⟩ := Prog.does_bind.mp h
    refine ⟨front, _, p, rfl, hobserve, ?_⟩
    have hlast : last = [] := by cases persisted <;> exact hlast.1
    rw [hlast, List.append_nil] at hback
    have hsaves := hpersist.only (persist_saves p.snapshot p.previous p.result p.now) event hback
    rw [hop] at hsaves
    exact hsaves.symm

theorem Observes.append {object : Object} {observed : Snapshot} {previous : Option Incident}
    {now engineNow : Time} (h : Observes H r key t object observed previous now engineNow)
    (more : List (Sigma Op.Reply)) :
    Observes H r key (t ++ more) object observed previous now engineNow := by
  obtain ⟨⟨served, reply, rest, hserved, htells, rfl⟩, hresolved, hnormalized⟩ := h
  exact ⟨⟨served, reply, rest ++ more, hserved, htells, rfl⟩, hresolved, hnormalized⟩

end Traces

/-- The resolution of an Event that has gone quiet. -/
def ResolvesEvent (observed : Snapshot) (result : Rules.Result) : Prop :=
  isRecovery result = true ∧ observed.event.isSome = true

/-- What is stored of an observation is what was measured, with 133 bytes more where it resolves
an Event. -/
theorem size_resultSnapshot {observed : Snapshot} {encoded : Json} (result : Rules.Result)
    (hevent : observed.event.isSome = true → observed.conditions = [])
    (hhash : observed.contentHash = contentHash H observed) (h : observed.toJson = some encoded) :
    ∃ stored, (resultSnapshot H observed result).toJson = some stored ∧
      (¬ResolvesEvent observed result → stored = encoded) ∧
      (ResolvesEvent observed result → stored.size + hashSize observed =
        encoded.size + 133 + hashSize (resultSnapshot H observed result)) := by
  have hvisible : ∀ s, contentHash H s ≠ "" := by
    intro s hempty
    have := contentHash_visible H s
    rw [hempty] at this
    cases this
  unfold ResolvesEvent resultSnapshot
  by_cases hresolves : isRecovery result = true ∧ observed.event.isSome = true
  · rw [if_pos (Bool.and_eq_true_iff.mpr hresolves)]
    have hconditions := hevent hresolves.2
    have hold : observed.contentHash ≠ "" := hhash ▸ hvisible observed
    obtain ⟨stored, hstored, hsize⟩ := size_elapsed hconditions h
      (hvisible { observed with conditions := observed.conditions ++ [elapsed] }) hold
    have hquiet : quietSnapshot H observed = { observed with
        conditions := [elapsed]
        contentHash := contentHash H
          { observed with conditions := observed.conditions ++ [elapsed] } } := by
      unfold quietSnapshot elapsed
      rw [hconditions]
      rfl
    refine ⟨stored, ?_, fun hnot => absurd hresolves hnot, fun _ => ?_⟩
    · rw [hquiet]
      exact hstored
    · rw [hquiet]
      exact hsize
  · rw [if_neg fun h => hresolves (Bool.and_eq_true_iff.mp h)]
    exact ⟨encoded, h, fun _ => rfl, fun hyes => absurd hyes hresolves⟩

/-- A snapshot of an object that exists, as the run has found it. What was measured of the object
is within the limit, and so is the snapshot, unless it resolves an Event that leaves no room for
the condition. -/
def Fits (H : Hasher) (r : Reconciler) (key : ResourceKey) (t : List (Sigma Op.Reply))
    (snapshot : Snapshot) : Prop :=
  ∃ object observed previous now engineNow encoded stored,
    Observes H r key t object observed previous now engineNow ∧
    observed.toJson = some encoded ∧ (encoded.size : Int) ≤ r.normalizer.maxBytes ∧
    snapshot = resultSnapshot H observed (r.rules.evaluate engineNow observed previous) ∧
    snapshot.toJson = some stored ∧
    ((stored.size : Int) ≤ r.normalizer.maxBytes ↔
      (ResolvesEvent observed (r.rules.evaluate engineNow observed previous) →
        (encoded.size : Int) + 133 + hashSize snapshot ≤
          r.normalizer.maxBytes + hashSize observed))

end Reconciler

open Reconciler

/-- Of an object that exists, `Reconcile` stores a snapshot within the limit exactly if it does
not resolve an Event, or if the Event leaves room for the condition of its resolution. -/
theorem saved_within_iff (H : Hasher) (r : Reconciler) (key : ResourceKey)
    {t : List (Sigma Op.Reply)} {outcome : Except Err Controller.Result}
    (h : Prog.Does (r.reconcile H key) t outcome) {incidentID : String} {snapshot : Snapshot}
    (hsaved : (incidentID, snapshot) ∈ savedSnapshots t) :
    (∃ now, ⟨.now, now⟩ ∈ t ∧ snapshot = r.deletionSnapshot H key now) ∨
      r.Fits H key t snapshot := by
  obtain ⟨front, back, p, rfl, hobserve, rfl⟩ := saved_of_does h hsaved
  rcases observe_does hobserve with ⟨now, hnow, hgone⟩ |
    ⟨object, observed, previous, now, engineNow, hobserves, hjudge⟩
  · exact .inl ⟨now, List.mem_append_left _ hnow, hgone⟩
  · obtain ⟨described, hdescribed, hs, encoded, hencoded, -, hlimit⟩ :=
      Normalizer.normalize_eq_ok hobserves.normalized
    obtain ⟨hresult, -, hsnapshot, -⟩ := judge_eq_persist hjudge
    have htyped := (Normalizer.describe_typed hobserves.resolved.typed hdescribed).2.2
    rw [hresult] at hsnapshot
    obtain ⟨stored, hstored, hsame, hmore⟩ := size_resultSnapshot (H := H) _
      (by rw [hs]; exact htyped) (by rw [hs]; rfl) hencoded
    rw [← hsnapshot] at hstored hmore
    refine .inr ⟨object, observed, previous, now, engineNow, encoded, stored,
      hobserves.append back, hencoded, hlimit, hsnapshot, hstored, ?_⟩
    constructor
    · intro hwithin hresolves
      have hsize := hmore hresolves
      omega
    · intro hroom
      by_contra hover
      have hresolves := not_not.mp fun hnot => hover (hsame hnot ▸ hlimit)
      have hsize := hmore hresolves
      have hroom := hroom hresolves
      omega

section Example

open Controller.Scenario

/-- A Warning that was last seen at noon. -/
def mountEvent : Object := .event
  { metadata := metadata, type := "Warning", reason := "FailedMount", lastTimestamp := noon }

/-- A reconciliation of it, some seconds after noon. -/
def eventCall (seconds : Int) : Call :=
  ⟨⟨"Event", "ns", "n", "u"⟩, world seconds (some mountEvent)⟩

/-- Every digest is the same, and as long as those of SHA-256. -/
def constantHasher : Hasher where
  hex _ := ofChars (List.replicate 64 '0')
  nonempty _ := by
    rw [ofChars_eq, String.toList_ofList]
    exact List.cons_ne_nil _ _
  digits _ c hc := by
    rw [ofChars_eq, String.toList_ofList] at hc
    rw [List.eq_of_mem_replicate hc]
    rfl

def limited (maxBytes : Int) : Reconciler :=
  { recording with normalizer := ⟨"c", ["mute"], maxBytes⟩ }

/-- The second reconciliation of the Event, when it has been quiet for long enough. -/
def quietTrace (r : Reconciler) : List (Sigma Op.Reply) :=
  Prog.trace (serve (eventCall 601).env) (r.reconcile constantHasher (eventCall 601).key)
    (r.after constantHasher [eventCall 0])

theorem quietTrace_does (r : Reconciler) :
    ∃ outcome, Prog.Does (r.reconcile constantHasher (eventCall 601).key) (quietTrace r) outcome :=
  ⟨_, Prog.does_trace _ _ _⟩

/-- With room for the condition, the snapshot of the resolution is within the limit. -/
theorem roomyEvent_fits :
    ∃ incidentID snapshot stored,
      (incidentID, snapshot) ∈ savedSnapshots (quietTrace (limited 454)) ∧
      (limited 454).Fits constantHasher (eventCall 601).key (quietTrace (limited 454)) snapshot ∧
      snapshot.conditions = [elapsed] ∧ snapshot.toJson = some stored ∧
      (stored.size : Int) ≤ (limited 454).normalizer.maxBytes := by
  obtain ⟨outcome, hdoes⟩ := quietTrace_does (limited 454)
  have hany : (savedSnapshots (quietTrace (limited 454))).any (fun saved =>
      saved.2.event.isSome && decide (saved.2.conditions = [elapsed]) &&
        saved.2.toJson.any (fun j => decide (j.size = 454))) = true := by
    decide +kernel
  obtain ⟨⟨incidentID, snapshot⟩, hsaved, hfacts⟩ := List.any_eq_true.mp hany
  simp only [Bool.and_eq_true, decide_eq_true_eq] at hfacts
  obtain ⟨⟨hevent, hconditions⟩, hstored⟩ := hfacts
  obtain ⟨stored, hjson, hsize⟩ := (Option.any_eq_true _ _).mp hstored
  have hfits := (saved_within_iff _ _ _ hdoes hsaved).resolve_left (by
    rintro ⟨now, -, rfl⟩
    cases hevent)
  refine ⟨incidentID, snapshot, stored, hsaved, hfits, hconditions, hjson, ?_⟩
  rw [of_decide_eq_true hsize]
  decide

/-- The Event is stored with the 321 bytes that the limit allows, and then with 454. -/
theorem quietEvent_oversized :
    ∃ outcome incidentID snapshot stored,
      Prog.Does ((limited 321).reconcile constantHasher (eventCall 601).key)
        (quietTrace (limited 321)) outcome ∧
      (incidentID, snapshot) ∈ savedSnapshots (quietTrace (limited 321)) ∧
      snapshot.event.isSome = true ∧ snapshot.toJson = some stored ∧
      stored.size = 454 ∧ (limited 321).normalizer.maxBytes = 321 := by
  obtain ⟨outcome, hdoes⟩ := quietTrace_does (limited 321)
  have hany : (savedSnapshots (quietTrace (limited 321))).any (fun saved =>
      saved.2.event.isSome && saved.2.toJson.any (fun j => j.size == 454)) = true := by
    decide +kernel
  obtain ⟨⟨incidentID, snapshot⟩, hsaved, hsize⟩ := List.any_eq_true.mp hany
  obtain ⟨hevent, hstored⟩ := Bool.and_eq_true_iff.mp hsize
  obtain ⟨stored, hjson, h454⟩ := (Option.any_eq_true _ _).mp hstored
  exact ⟨outcome, incidentID, snapshot, stored, hdoes, hsaved, hevent, hjson,
    beq_iff_eq.mp h454, rfl⟩

end Example

end RuleRaven.Controller
