import RuleRaven.System.Effects

namespace RuleRaven.Kube

open Framework

/-- The immutable queue payload: identity only, the state is fetched after dequeueing. -/
structure ResourceKey where
  kind : String
  «namespace» : String
  name : String
  uid : String
  deriving DecidableEq

def ResourceKey.source (key : ResourceKey) (clusterID : String) : Source :=
  { clusterID := clusterID, kind := key.kind, «namespace» := key.namespace, name := key.name,
    uid := key.uid }

def ResourceKey.validate (key : ResourceKey) : Except Err Unit :=
  if key.kind = "" ∨ key.name = "" ∨ key.uid = "" then
    .error ⟨"resource kind, name, and UID are required", none⟩
  else .ok ()

def errKubeNotFound : Err := ⟨"Kubernetes resource not found", some .kubeNotFound⟩

/-- The kinds that have a typed client. -/
def resolvableKinds : List String :=
  ["Pod", "Event", "Deployment", "StatefulSet", "DaemonSet", "Job"]

/-- `ClientResolver.Resolve`: another UID under the same name is a resource not found. -/
def resolve (key : ResourceKey) : Eff (Except Err Object) :=
  match key.validate with
  | .error err => pure (.error err)
  | .ok () =>
    if !resolvableKinds.contains key.kind then
      pure (.error ⟨"unsupported Kubernetes resource kind \"" ++ key.kind ++ "\"", none⟩)
    else do
      match ← Eff.kubeGet key.kind key.namespace key.name with
      | .error .notFound => pure (.error errKubeNotFound)
      | .error (.other text) => pure (.error ⟨"resolve " ++ key.kind ++ " " ++ key.namespace ++
          "/" ++ key.name ++ ": " ++ text, none⟩)
      | .ok object =>
        if object.val.header.metadata.uid ≠ key.uid then pure (.error errKubeNotFound)
        else pure (.ok object.val)

/-- What a resolved object and its key have in common. -/
structure Resolved (key : ResourceKey) (object : Object) : Prop where
  typed : object.resource ≠ ""
  kind : object.resource = key.kind
  «namespace» : object.header.metadata.namespace = key.namespace
  name : object.header.metadata.name = key.name
  uid : object.header.metadata.uid = key.uid

theorem resolved_served {key : ResourceKey} (hkind : resolvableKinds.contains key.kind = true)
    (object : Served key.kind key.namespace key.name)
    (huid : object.val.header.metadata.uid = key.uid) : Resolved key object.val := by
  obtain ⟨hres, hns, hname⟩ := object.property
  refine ⟨fun hempty => ?_, hres, hns, hname, huid⟩
  rw [← hres, hempty] at hkind
  exact absurd hkind (by decide)

theorem resolve_only {P : Op → Prop} (hP : ∀ kind ns name, P (.kubeGet kind ns name))
    (key : ResourceKey) : Prog.Only P (resolve key) := by
  unfold resolve
  split
  · trivial
  · split_ifs
    · trivial
    · refine Prog.only_bind (Eff.only_kubeGet (hP _ _ _)) fun reply => ?_
      rcases reply with (_ | text) | object
      · trivial
      · trivial
      · dsimp only
        split_ifs <;> trivial

end RuleRaven.Kube
