import RuleRaven.Framework.Trace
import RuleRaven.System.Deletion
import RuleRaven.System.Upkeep

namespace RuleRaven.Controller.Reconciler

open Framework Framework.Prog Kube

section Reads

variable {H : Hasher} {r : Reconciler} {key : ResourceKey} {s : Prop}

/-- Of the incidents, a reconciliation reads the one of its resource only. -/
def ReadsOwn (H : Hasher) (r : Reconciler) (key : ResourceKey) : Op → Prop
  | .store (.incidentsFindOne _ incidentID) => incidentID = incidentKey H (key.source r.clusterID)
  | _ => True

/-- A program all of whose reads are of that incident. -/
abbrev Reads {α : Type} (H : Hasher) (r : Reconciler) (key : ResourceKey) (Q : α → Prop)
    (p : Eff α) (s : Prop) : Prop :=
  Safe (judging (ReadsOwn H r key)) innocent () (fun a _ => Q a) p s

/-- What is persisted belongs to that incident, too. -/
theorem Arises.incidentKey (hwired : r.Wired) {p : Pending} (h : Arises H r key p) :
    incidentKey H p.snapshot.source = Kube.incidentKey H (key.source r.clusterID) := by
  cases h with
  | live hfound hobserved hjudge =>
    rw [(judge_eq_persist hjudge).2.2.1, resultSnapshot_source]
    exact live_incidentKey hwired hfound hobserved
  | gone now hstatus => rfl

instance (op : Op) : Nonempty op.Reply := by
  cases op with
  | store op => exact ⟨.error ⟨"", none⟩⟩
  | now => exact ⟨(0 : Time)⟩
  | kubeGet kind ns name => exact ⟨.error .notFound⟩
  | evaluate slot request => exact ⟨.error ⟨"", none⟩⟩
  | deliver destination envelope => exact ⟨(none : Option Notify.DeliveryError)⟩
  | ctxErr => exact ⟨(none : Option Err)⟩

end Reads

end RuleRaven.Controller.Reconciler

namespace RuleRaven

open Framework Kube Controller Controller.Reconciler Notify

/-- No other reconciliation of the same resource is at work. -/
def exclusive (i : Execution) (_ : Op) (w : World Execution) : Prop :=
  ∀ key n, i = .reconcile key n → ∀ e ∈ w.trace, ∀ other m, e.worker = .reconcile other m →
    other.uid = key.uid → e.worker = i ∨ e.worker ∈ w.gone

/-- A commit finds its incident in the version that it expects. -/
def Event.Current {ι : Type} (e : Event ι) : Prop :=
  match e.op with
  | .store (.commit request) => ∃ row ∈ e.before.incidents.rows,
      row.id = request.incident.id ∧ row.version = request.expectedVersion
  | _ => True

def AllCurrent (w : World Execution) : Prop := ∀ e ∈ w.trace, e.Current

section Walk

variable {H : Hasher} {r : Reconciler} {key : ResourceKey} {n : Nat} {i : Execution}
  {w : World Execution} {α : Type}

theorem AllCurrent.extend (hw : AllCurrent w) {op : Op} {reply : op.Reply} {s' : Store}
    (hnew : (⟨i, op, reply, w.clock, w.store, s'⟩ : Event Execution).Current) :
    AllCurrent (w.extend i op reply s') := by
  intro e he
  rcases List.mem_append.mp he with he | he
  · exact hw e he
  · rw [List.mem_singleton.mp he]
    exact hnew

end Walk

/-- What an execution does: the reconciliation of a known key, or a dispatch. -/
def executes (r : Reconciler) (d : Dispatcher) (known : ResourceKey → Prop) :
    Execution → Task → Prop
  | .reconcile key _, task => known key ∧ task = .reconcile r key
  | .dispatch _, task => task = .dispatch d

section Runs

variable {H : Hasher} {r : Reconciler} {d : Dispatcher} {known : ResourceKey → Prop} {t : Time}
  {c : Framework.Config Execution Op Op.Reply Unit (World Execution)}

end Runs

end RuleRaven
