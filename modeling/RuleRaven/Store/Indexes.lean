import RuleRaven.Basic
import RuleRaven.Framework.Monotone
import Mathlib.Data.List.Nodup

namespace RuleRaven.Mongo

open Framework

structure IndexKey where
  field : String
  direction : Int
  deriving DecidableEq, Repr

structure IndexSpec where
  name : String
  keys : List IndexKey
  unique : Bool := false
  ttl : Option Duration := none
  deriving DecidableEq, Repr

/-- The required indexes of each collection. -/
def requiredIndexes : List (String × List IndexSpec) :=
  [("incidents",
      [{ name := "ux_incidents_cluster_id_incident_key",
         keys := [⟨"cluster_id", 1⟩, ⟨"incident_key", 1⟩], unique := true },
       { name := "ix_incidents_status_updated_at", keys := [⟨"status", 1⟩, ⟨"updated_at", -1⟩] },
       { name := "ttl_incidents_expires_at", keys := [⟨"expires_at", 1⟩], ttl := some 0 }]),
    ("snapshots",
      [{ name := "ux_snapshots_incident_id_content_hash",
         keys := [⟨"incident_id", 1⟩, ⟨"content_hash", 1⟩], unique := true },
       { name := "ix_snapshots_incident_id_observed_at",
         keys := [⟨"incident_id", 1⟩, ⟨"observed_at", -1⟩] },
       { name := "ttl_snapshots_expires_at", keys := [⟨"expires_at", 1⟩], ttl := some 0 }]),
    ("evaluations",
      [{ name := "ux_evaluations_identity",
         keys := [⟨"incident_id", 1⟩, ⟨"snapshot_hash", 1⟩, ⟨"policy_version", 1⟩,
           ⟨"rubric_version", 1⟩, ⟨"provider_config_hash", 1⟩], unique := true },
       { name := "ix_evaluations_incident_id_created_at",
         keys := [⟨"incident_id", 1⟩, ⟨"created_at", -1⟩] },
       { name := "ttl_evaluations_expires_at", keys := [⟨"expires_at", 1⟩], ttl := some 0 }]),
    ("outbox",
      [{ name := "ux_outbox_evaluation_destination_event",
         keys := [⟨"evaluation_id", 1⟩, ⟨"destination_id", 1⟩, ⟨"event_type", 1⟩],
         unique := true },
       { name := "ix_outbox_claim",
         keys := [⟨"status", 1⟩, ⟨"next_attempt_at", 1⟩, ⟨"lease_until", 1⟩] },
       { name := "ix_outbox_evaluation_id", keys := [⟨"evaluation_id", 1⟩] },
       { name := "ttl_outbox_expires_at", keys := [⟨"expires_at", 1⟩], ttl := some 0 }])]

/-- A value in the key of an index, by the type it is decoded to; of a floating point number
only the whole part is read. -/
inductive KeyValue where
  | int (n : Int)
  | int32 (n : Int)
  | int64 (n : Int)
  | float64 (whole : Int)
  | other (text : String)
  deriving DecidableEq, Repr

def numericDirection : KeyValue → Int
  | .int n => n
  | .int32 n => n
  | .int64 n => n
  | .float64 whole => whole
  | .other _ => 0

def equalKeys (left right : List (String × KeyValue)) : Bool :=
  left.length == right.length && (left.zip right).all fun e =>
    e.1.1 == e.2.1 && numericDirection e.1.2 == numericDirection e.2.2

/-- The whole seconds of a duration. -/
def wholeSeconds (d : Duration) : Int := d.toInt.tdiv 1000000000

structure IndexModel where
  name : String
  keys : List (String × KeyValue)
  unique : Bool
  expireAfterSeconds : Option Int
  deriving DecidableEq, Repr

structure ListedIndex where
  name : String
  key : List (String × KeyValue)
  unique : Bool := false
  expireAfterSeconds : Option Int := none
  deriving DecidableEq, Repr

namespace IndexSpec

def bsonKeys (s : IndexSpec) : List (String × KeyValue) :=
  s.keys.map fun key => (key.field, .int key.direction)

def model (s : IndexSpec) : IndexModel where
  name := s.name
  keys := s.bsonKeys
  unique := s.unique
  expireAfterSeconds := s.ttl.map wholeSeconds

end IndexSpec

/-- Why the indexes of one collection could not be ensured. -/
inductive CollectionError where
  | listIndexes (err : Err)
  | incompatibleKeys (index : String) (key : List (String × KeyValue))
  | uniqueness (index : String) (got want : Bool)
  | unexpectedTTL (index : String)
  | incompatibleTTL (index : String)
  | incompatibleName (required existing : String)
  | createIndex (index : String) (err : Err)
  deriving DecidableEq, Repr

inductive IndexError where
  | listCollections (err : Err)
  | createCollection (name : String) (err : Err)
  | collection (name : String) (cause : CollectionError)
  deriving DecidableEq, Repr

def compareIndex (existing : ListedIndex) (expected : IndexSpec) : Except CollectionError Unit :=
  if !equalKeys existing.key expected.bsonKeys then
    .error (.incompatibleKeys expected.name existing.key)
  else if existing.unique != expected.unique then
    .error (.uniqueness expected.name existing.unique expected.unique)
  else if expected.ttl.isNone && existing.expireAfterSeconds.isSome then
    .error (.unexpectedTTL expected.name)
  else match expected.ttl with
    | none => .ok ()
    | some ttl =>
      if existing.expireAfterSeconds = some (wholeSeconds ttl) then .ok ()
      else .error (.incompatibleTTL expected.name)

/-- The calls `ensureIndexes` makes to the database. -/
inductive CatalogOp where
  | listCollectionNames
  | createCollection (name : String)
  | listIndexes (collection : String)
  | createOne (collection : String) (model : IndexModel)

abbrev CatalogReply (op : CatalogOp) : Type :=
  Except Err (match op with
    | .listCollectionNames => List String
    | .createCollection _ => Unit
    | .listIndexes _ => List ListedIndex
    | .createOne _ _ => Unit)

abbrev CatalogProg : Type → Type := Prog CatalogOp CatalogReply

def listCollectionNames : CatalogProg (Except Err (List String)) :=
  Prog.perform CatalogOp.listCollectionNames

def createCollection (name : String) : CatalogProg (Except Err Unit) :=
  Prog.perform (CatalogOp.createCollection name)

def listIndexes (collection : String) : CatalogProg (Except Err (List ListedIndex)) :=
  Prog.perform (CatalogOp.listIndexes collection)

def createOne (collection : String) (model : IndexModel) : CatalogProg (Except Err Unit) :=
  Prog.perform (CatalogOp.createOne collection model)

/-- `byName[name]`: of two indexes of one name the later one. -/
def byName (current : List ListedIndex) (name : String) : Option ListedIndex :=
  current.foldl (fun found index => if index.name = name then some index else found) none

/-- One round of the loop of `ensureCollectionIndexes`, over the indexes listed before it. -/
def ensureIndex (collection : String) (current : List ListedIndex) (expected : IndexSpec) :
    CatalogProg (Except CollectionError Unit) :=
  match byName current expected.name with
  | some existing => pure (compareIndex existing expected)
  | none =>
    match current.find? fun existing =>
        existing.name != "_id_" && equalKeys existing.key expected.bsonKeys with
    | some existing => pure (.error (.incompatibleName expected.name existing.name))
    | none => do
      match ← createOne collection expected.model with
      | .error err => pure (.error (.createIndex expected.name err))
      | .ok () => pure (.ok ())

def ensureCollectionIndexes (collection : String) (required : List IndexSpec) :
    CatalogProg (Except CollectionError Unit) := do
  match ← listIndexes collection with
  | .error err => pure (.error (.listIndexes err))
  | .ok current => Prog.untilError (ensureIndex collection current) required

/-- A collection that was not listed is created. -/
def ensureCreated (collections : List String) (name : String) :
    CatalogProg (Except IndexError Unit) :=
  if name ∈ collections then pure (.ok ())
  else do
    match ← createCollection name with
    | .error err => pure (.error (.createCollection name err))
    | .ok () => pure (.ok ())

/-- One round of the loop of `ensureIndexes`, over the collections listed before it. -/
def ensureCollection (collections : List String) (entry : String × List IndexSpec) :
    CatalogProg (Except IndexError Unit) := do
  match ← ensureCreated collections entry.1 with
  | .error err => pure (.error err)
  | .ok () =>
    match ← ensureCollectionIndexes entry.1 entry.2 with
    | .error err => pure (.error (.collection entry.1 err))
    | .ok () => pure (.ok ())

/-- The collections in the order of their names. -/
def sortedIndexes : List (String × List IndexSpec) :=
  sortSlice (fun a b => a.1 < b.1) requiredIndexes

theorem mem_sortedIndexes {entry : String × List IndexSpec} :
    entry ∈ sortedIndexes ↔ entry ∈ requiredIndexes :=
  (sortSlice_perm _ _).mem_iff

def ensureIndexes : CatalogProg (Except IndexError Unit) := do
  match ← listCollectionNames with
  | .error err => pure (.error (.listCollections err))
  | .ok collections => Prog.untilError (ensureCollection collections) sortedIndexes

/-! ### What the comparisons say -/

/-- A key as the field names and the directions that are compared. -/
def directed (keys : List (String × KeyValue)) : List (String × Int) :=
  keys.map fun key => (key.1, numericDirection key.2)

/-- An index that is as it was asked for. -/
structure ListedIndex.Matches (index : ListedIndex) (m : IndexModel) : Prop where
  name : index.name = m.name
  keys : directed index.key = directed m.keys
  unique : index.unique = m.unique
  expires : index.expireAfterSeconds = m.expireAfterSeconds

/-- An index that is as it is required: by the fields of its key in their order, each with its
direction, by whether it is unique, and by the time after which it lets documents expire. -/
structure ListedIndex.Meets (index : ListedIndex) (s : IndexSpec) : Prop where
  name : index.name = s.name
  keys : directed index.key = s.keys.map fun key => (key.field, key.direction)
  unique : index.unique = s.unique
  expires : index.expireAfterSeconds = s.ttl.map wholeSeconds

theorem equalKeys_iff {left right : List (String × KeyValue)} :
    equalKeys left right = true ↔ directed left = directed right := by
  induction left generalizing right with
  | nil => cases right <;> simp [equalKeys, directed]
  | cons l left ih =>
    cases right with
    | nil => simp [equalKeys, directed]
    | cons r right =>
      have hrest := @ih right
      simp only [equalKeys, directed, Bool.and_eq_true, beq_iff_eq, List.length_cons,
        List.zip_cons_cons, List.all_cons, List.map_cons, List.cons.injEq, Prod.mk.injEq,
        Nat.add_right_cancel_iff] at hrest ⊢
      rw [← hrest]
      tauto

theorem directed_bsonKeys (s : IndexSpec) :
    directed s.bsonKeys = s.keys.map fun key => (key.field, key.direction) := by
  simp [directed, IndexSpec.bsonKeys, numericDirection]

theorem directed_model_inj {s t : IndexSpec} (h : directed s.model.keys = directed t.model.keys) :
    s.keys = t.keys := by
  refine List.map_injective_iff.mpr ?_
    ((directed_bsonKeys s).symm.trans (h.trans (directed_bsonKeys t)))
  rintro ⟨f, d⟩ ⟨g, e⟩ hfd
  simpa using hfd

theorem ListedIndex.meets_iff {index : ListedIndex} {s : IndexSpec} :
    index.Meets s ↔ index.Matches s.model := by
  constructor
  · rintro ⟨hname, hkeys, hunique, hexpires⟩
    exact ⟨hname, hkeys.trans (directed_bsonKeys s).symm, hunique, hexpires⟩
  · rintro ⟨hname, hkeys, hunique, hexpires⟩
    exact ⟨hname, hkeys.trans (directed_bsonKeys s), hunique, hexpires⟩

/-- Of an index of the right name, the comparison looks at all that is required. -/
theorem compareIndex_ok {existing : ListedIndex} {expected : IndexSpec}
    (hname : existing.name = expected.name) :
    compareIndex existing expected = .ok () ↔ existing.Meets expected := by
  have hok : compareIndex existing expected = .ok () ↔
      equalKeys existing.key expected.bsonKeys = true ∧ existing.unique = expected.unique ∧
        existing.expireAfterSeconds = expected.ttl.map wholeSeconds := by
    unfold compareIndex
    cases equalKeys existing.key expected.bsonKeys with
    | false => simp
    | true =>
      by_cases hunique : existing.unique = expected.unique
      · cases expected.ttl with
        | none => cases hexpire : existing.expireAfterSeconds <;> simp [hunique]
        | some ttl => simp [hunique]
      · simp [hunique]
  rw [hok, equalKeys_iff, directed_bsonKeys]
  constructor
  · rintro ⟨hkeys, hunique, hexpires⟩
    exact ⟨hname, hkeys, hunique, hexpires⟩
  · rintro ⟨-, hkeys, hunique, hexpires⟩
    exact ⟨hkeys, hunique, hexpires⟩

theorem byName_cases (current : List ListedIndex) (name : String) :
    (∃ index ∈ current, index.name = name ∧ byName current name = some index) ∨
      (byName current name = none ∧ ∀ index ∈ current, index.name ≠ name) := by
  have hfold : ∀ (current : List ListedIndex) found,
      (∃ index ∈ current, index.name = name ∧ current.foldl
        (fun found index => if index.name = name then some index else found) found = some index) ∨
      (current.foldl (fun found index => if index.name = name then some index else found) found =
        found ∧ ∀ index ∈ current, index.name ≠ name) := by
    intro current
    induction current with
    | nil => exact fun found => .inr ⟨rfl, fun _ h => absurd h List.not_mem_nil⟩
    | cons first rest ih =>
      intro found
      rw [List.foldl_cons]
      rcases ih (if first.name = name then some first else found) with
        ⟨index, hmem, hname, hfound⟩ | ⟨hfound, hnone⟩
      · exact .inl ⟨index, List.mem_cons_of_mem _ hmem, hname, hfound⟩
      · rw [hfound]
        split_ifs with hfirst
        · exact .inl ⟨first, List.mem_cons_self, hfirst, rfl⟩
        · exact .inr ⟨rfl, List.forall_mem_cons.mpr ⟨hfirst, hnone⟩⟩
  exact hfold current none

/-! ### The database's side -/

/-- What is seen of a database, and how it answers where nothing disturbs it. -/
structure Database where
  State : Type
  collections : State → List String
  /-- The indexes of a collection. -/
  indexes : State → String → List ListedIndex
  /-- Two documents of the collection agree in the key of the index. -/
  Duplicated : State → String → IndexModel → Prop
  serve : (op : CatalogOp) → State → CatalogReply op × State

/-- Neither the name of an index nor its key is taken. -/
def Admits (indexes : List ListedIndex) (m : IndexModel) : Prop :=
  ∀ index ∈ indexes, index.name ≠ m.name ∧ directed index.key ≠ directed m.keys

/-- The index every collection is made with. -/
def idIndex : ListedIndex := { name := "_id_", key := [("_id", .int32 1)] }

/-- A collection has gained some indexes, and nothing else has changed. -/
structure Database.Adds (D : Database) (collection : String) (news : List ListedIndex)
    (s s' : D.State) : Prop where
  collections : ∀ name, name ∈ D.collections s' ↔ name ∈ D.collections s ∨ name = collection
  indexes : ∀ index, index ∈ D.indexes s' collection ↔
    index ∈ D.indexes s collection ∨ index ∈ news
  others : ∀ name, name ≠ collection → D.indexes s' name = D.indexes s name
  documents : ∀ name m, D.Duplicated s' name m ↔ D.Duplicated s name m

/-- The laws of the server. What the store requires can be made: a collection that is not there,
and an index whose name and key are free, unless it is unique and documents stand in its way. The
answer to a call that makes something tells whether it is there. An index that is built in a
collection that is not there makes the collection as well. -/
structure Server extends Database where
  distinct : ∀ s name, ((indexes s name).map ListedIndex.name).Nodup
  indexes_absent : ∀ s name, name ∉ collections s → indexes s name = []
  lists_collections : ∀ s, serve .listCollectionNames s = (.ok (collections s), s)
  lists_indexes : ∀ s name, serve (.listIndexes name) s = (.ok (indexes s name), s)
  creates_collection : ∀ s, ∀ entry ∈ requiredIndexes, entry.1 ∉ collections s →
    (serve (.createCollection entry.1) s).1 = .ok ()
  tells_collection : ∀ s name,
    (∃ s', serve (.createCollection name) s = (.ok (), s') ∧
      toDatabase.Adds name (if name ∈ collections s then [] else [idIndex]) s s') ∨
    ∃ err, serve (.createCollection name) s = (.error err, s)
  creates_index : ∀ s, ∀ entry ∈ requiredIndexes, ∀ spec ∈ entry.2,
    Admits (indexes s entry.1) spec.model →
    (spec.unique = true → ¬Duplicated s entry.1 spec.model) →
    (serve (.createOne entry.1 spec.model) s).1 = .ok ()
  tells_index : ∀ s name m,
    (∃ index ∈ indexes s name, index.Matches m ∧ serve (.createOne name m) s = (.ok (), s)) ∨
    (∃ s' index, serve (.createOne name m) s = (.ok (), s') ∧ index.Matches m ∧
      toDatabase.Adds name (if name ∈ collections s then [index] else [idIndex, index]) s s') ∨
    ∃ err, serve (.createOne name m) s = (.error err, s)

namespace Server

variable (S : Server)

/-- Nothing is taken away. -/
def Grows (s s' : S.State) : Prop :=
  ∀ name, (name ∈ S.collections s → name ∈ S.collections s') ∧
    ∀ index ∈ S.indexes s name, index ∈ S.indexes s' name

/-- The database as a client sees it: a call may fail before it takes effect or after. -/
def Answers (op : CatalogOp) (s : S.State) (reply : CatalogReply op) (s' : S.State) : Prop :=
  (reply = (S.serve op s).1 ∧ s' = (S.serve op s).2) ∨
    ∃ err, reply = .error err ∧ (s' = s ∨ s' = (S.serve op s).2)

/-- Replicas that start at any time, over a database that others use as well. -/
def machine (ι : Type) (others : S.State → S.State → Prop) :
    Machine ι CatalogOp CatalogReply S.State where
  act _ := S.Answers
  env := others
  halt _ s := s

/-- What replicas may be started. -/
def starting {ι : Type} : S.State → ι → CatalogProg (Except IndexError Unit) → Prop :=
  fun _ _ p => p = ensureIndexes

abbrev Replicas (ι : Type) : Type :=
  Config ι CatalogOp CatalogReply (Except IndexError Unit) S.State

variable {S} {s s' : S.State}

theorem Grows.refl (s : S.State) : S.Grows s s := fun _ => ⟨id, fun _ => id⟩

theorem Grows.trans (s t u : S.State) (h : S.Grows s t) (h' : S.Grows t u) : S.Grows s u :=
  fun name => ⟨fun hname => (h' name).1 ((h name).1 hname),
    fun index hindex => (h' name).2 index ((h name).2 index hindex)⟩

theorem grows_of_adds {collection : String} {news : List ListedIndex}
    (h : S.Adds collection news s s') : S.Grows s s' := by
  intro name
  refine ⟨fun hname => (h.collections name).mpr (.inl hname), fun index hindex => ?_⟩
  by_cases hne : name = collection
  · subst hne
    exact (h.indexes index).mpr (.inl hindex)
  · rwa [h.others name hne]

theorem serve_grows (op : CatalogOp) (s : S.State) : S.Grows s (S.serve op s).2 := by
  cases op with
  | listCollectionNames =>
    rw [S.lists_collections]
    exact .refl s
  | listIndexes name =>
    rw [S.lists_indexes]
    exact .refl s
  | createCollection name =>
    rcases S.tells_collection s name with ⟨s', hserve, hadds⟩ | ⟨err, hserve⟩
    · rw [hserve]
      exact grows_of_adds hadds
    · rw [hserve]
      exact .refl s
  | createOne name m =>
    rcases S.tells_index s name m with ⟨index, -, -, hserve⟩ | ⟨s', index, hserve, -, hadds⟩ |
      ⟨err, hserve⟩
    · rw [hserve]
      exact .refl s
    · rw [hserve]
      exact grows_of_adds hadds
    · rw [hserve]
      exact .refl s

theorem Answers.grows {op : CatalogOp} {reply : CatalogReply op} (h : S.Answers op s reply s') :
    S.Grows s s' := by
  rcases h with ⟨-, rfl⟩ | ⟨err, -, rfl | rfl⟩
  · exact serve_grows op s
  · exact .refl s'
  · exact serve_grows op s

/-- A call that was not failed was answered by the database. -/
theorem Answers.of_ok {op : CatalogOp} {reply : CatalogReply op} (h : S.Answers op s reply s')
    (hreply : reply.isOk = true) : S.serve op s = (reply, s') := by
  rcases h with ⟨rfl, rfl⟩ | ⟨err, rfl, -⟩
  · rfl
  · cases hreply

end Server

end RuleRaven.Mongo
