import RuleRaven.Framework.Prog
import RuleRaven.Kube.Normalizer
import RuleRaven.Notify.Envelope
import RuleRaven.Store.Mongo

namespace RuleRaven

open Framework Kube Provider Notify

inductive ProviderSlot where
  | primary
  | fallback
  deriving DecidableEq, Repr

/-- The calls by which the controllers touch the world outside them. -/
inductive Op where
  | store (op : StoreOp)
  | now
  | kubeGet (kind «namespace» name : String)
  | evaluate (slot : ProviderSlot) (request : EvaluationRequest)
  | deliver (destination : String) (envelope : Envelope)
  | ctxErr

inductive KubeError where
  | notFound
  | other (text : String)
  deriving DecidableEq

/-- What a typed client can answer to a `Get`: an object of the kind, namespace and name it
was asked for. -/
def Served (kind «namespace» name : String) : Type :=
  { o : Object // o.resource = kind ∧ o.header.metadata.namespace = «namespace» ∧
    o.header.metadata.name = name }

def Op.Reply : Op → Type
  | .store op => Except Err op.Out
  | .now => Time
  | .kubeGet kind ns name => Except KubeError (Served kind ns name)
  | .evaluate _ _ => Except Err EvaluationResponse
  | .deliver _ _ => Option DeliveryError
  | .ctxErr => Option Err

abbrev Eff := Prog Op Op.Reply

namespace Eff

def store (op : StoreOp) : Eff (Except Err op.Out) := Prog.perform (Op.store op)

def now : Eff Time := Prog.perform Op.now

def kubeGet (kind ns name : String) : Eff (Except KubeError (Served kind ns name)) :=
  Prog.perform (Op.kubeGet kind ns name)

def evaluate (slot : ProviderSlot) (request : EvaluationRequest) :
    Eff (Except Err EvaluationResponse) := Prog.perform (Op.evaluate slot request)

def deliver (destination : String) (envelope : Envelope) : Eff (Option DeliveryError) :=
  Prog.perform (Op.deliver destination envelope)

def ctxErr : Eff (Option Err) := Prog.perform Op.ctxErr

section Only

variable {P : Op → Prop}

theorem only_store {op : StoreOp} (h : P (.store op)) : Prog.Only P (store op) :=
  Prog.only_perform h

theorem only_now (h : P .now) : Prog.Only P now := Prog.only_perform h

theorem only_kubeGet {kind ns name : String} (h : P (.kubeGet kind ns name)) :
    Prog.Only P (kubeGet kind ns name) := Prog.only_perform h

theorem only_evaluate {slot : ProviderSlot} {request : EvaluationRequest}
    (h : P (.evaluate slot request)) : Prog.Only P (evaluate slot request) :=
  Prog.only_perform h

theorem only_deliver {destination : String} {envelope : Envelope}
    (h : P (.deliver destination envelope)) : Prog.Only P (deliver destination envelope) :=
  Prog.only_perform h

theorem only_ctxErr (h : P .ctxErr) : Prog.Only P ctxErr := Prog.only_perform h

end Only

end Eff

end RuleRaven
