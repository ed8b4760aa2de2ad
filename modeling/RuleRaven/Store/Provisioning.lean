import RuleRaven.Store.Indexes
import Mathlib.Logic.Function.Basic

namespace RuleRaven.Mongo

open Framework

variable {S : Server} {s s' : S.State}

/-! ### What a replica finds after it -/

/-- The index is there under its name and as it is wanted. -/
def Present (spec : IndexSpec) (indexes : List ListedIndex) : Prop :=
  ∃ index ∈ indexes, index.Meets spec

/-- The database has every required index. -/
def Provided (S : Server) (s : S.State) : Prop :=
  ∀ entry ∈ requiredIndexes, ∀ spec ∈ entry.2, Present spec (S.indexes s entry.1)

theorem Present.grows {spec : IndexSpec} {name : String} (hup : S.Grows s s')
    (h : Present spec (S.indexes s name)) : Present spec (S.indexes s' name) := by
  obtain ⟨index, hmem, hindex⟩ := h
  exact ⟨index, (hup name).2 index hmem, hindex⟩

/-- A call that was told of an index leaves it there. -/
theorem createOne_present {collection : String} {spec : IndexSpec}
    (h : S.serve (.createOne collection spec.model) s = (.ok (), s')) :
    Present spec (S.indexes s' collection) := by
  rcases S.tells_index s collection spec.model with ⟨index, hmem, hmatches, hserve⟩ |
    ⟨_, index, hserve, hmatches, hadds⟩ | ⟨err, hserve⟩ <;> rw [h] at hserve <;> cases hserve
  · exact ⟨index, hmem, ListedIndex.meets_iff.mpr hmatches⟩
  · exact ⟨index, (hadds.indexes index).mpr (.inr (by split_ifs <;> simp)),
      ListedIndex.meets_iff.mpr hmatches⟩

section Safety

variable {ι : Type} {others : S.State → S.State → Prop} {i : ι}

/-- Nobody takes anything away. -/
def additive (S : Server) : Contract ι S.State :=
  rising S.Grows Server.Grows.refl Server.Grows.trans

theorem act_grows (i : ι) (op : CatalogOp) (s : S.State) (reply : CatalogReply op)
    (s' : S.State) (h : (S.machine ι others).act i op s reply s') : S.Grows s s' :=
  Server.Answers.grows h

theorem ensureIndex_safe {collection : String} {current : List ListedIndex}
    (expected : IndexSpec) (hcurrent : ∀ index ∈ current, index ∈ S.indexes s collection) :
    Safe (S.machine ι others) (additive S) i
      (fun result s' => result = .ok () → Present expected (S.indexes s' collection))
      (ensureIndex collection current expected) s := by
  unfold ensureIndex
  rcases byName_cases current expected.name with ⟨index, hmem, hname, hfound⟩ | ⟨hfound, -⟩
  · rw [hfound]
    exact fun hok => ⟨index, hcurrent index hmem, (compareIndex_ok hname).mp hok⟩
  rw [hfound]
  dsimp only
  split
  · exact fun herr => by cases herr
  refine safe_then (P := fun reply s' => reply = .ok () →
    Present expected (S.indexes s' collection)) ?_ ?_
  · refine safe_rising (K := fun _ => True) act_grows (fun _ _ _ h => h) ?_ trivial
    rintro s reply s' - hact rfl
    have hanswers : S.Answers (.createOne collection expected.model) s (.ok ()) s' := hact
    exact createOne_present (hanswers.of_ok rfl)
  · rintro (err | _) s' hpresent
    · exact fun herr => by cases herr
    · exact fun _ => hpresent rfl

theorem ensureCollectionIndexes_safe (collection : String) (required : List IndexSpec)
    (s : S.State) :
    Safe (S.machine ι others) (additive S) i
      (fun result s' => result = .ok () →
        ∀ spec ∈ required, Present spec (S.indexes s' collection))
      (ensureCollectionIndexes collection required) s := by
  unfold ensureCollectionIndexes
  refine safe_then (P := fun reply s' => ∀ current, reply = .ok current →
    ∀ index ∈ current, index ∈ S.indexes s' collection) ?_ ?_
  · refine safe_rising (K := fun _ => True) act_grows (fun _ _ _ h => h) ?_ trivial
    rintro s reply s' - hact current rfl
    have hanswers : S.Answers (.listIndexes collection) s (.ok current) s' := hact
    have hserve := hanswers.of_ok rfl
    rw [S.lists_indexes] at hserve
    cases hserve
    exact fun _ h => h
  · rintro (err | current) s' hcurrent
    · exact fun herr => by cases herr
    · exact safe_untilError (K := fun s => ∀ index ∈ current, index ∈ S.indexes s collection)
        (P := fun spec s => Present spec (S.indexes s collection)) act_grows
        (fun _ _ hup h index hmem => (hup collection).2 index (h index hmem))
        (fun _ _ _ hup => Present.grows hup)
        (fun spec _ _ => ensureIndex_safe spec) (hcurrent current rfl)

theorem ensureCollection_safe (collections : List String) (entry : String × List IndexSpec)
    (s : S.State) :
    Safe (S.machine ι others) (additive S) i
      (fun result s' => result = .ok () →
        ∀ spec ∈ entry.2, Present spec (S.indexes s' entry.1))
      (ensureCollection collections entry) s := by
  unfold ensureCollection
  refine safe_then (P := fun _ _ => True) ?_ ?_
  · unfold ensureCreated
    split_ifs with hexists
    · trivial
    · refine safe_then (P := fun _ _ => True) ?_ ?_
      · exact safe_rising (K := fun _ => True) act_grows (fun _ _ _ h => h)
          (fun _ _ _ _ _ => trivial) trivial
      · rintro (err | _) s' - <;> trivial
  · rintro (err | _) s' -
    · exact fun herr => by cases herr
    · refine safe_then (ensureCollectionIndexes_safe entry.1 entry.2 s') ?_
      rintro (err | _) s' hpresent
      · exact fun herr => by cases herr
      · exact fun _ => hpresent rfl

theorem ensureIndexes_safe (s : S.State) :
    Safe (S.machine ι others) (additive S) i
      (fun result s' => result = .ok () → Provided S s') ensureIndexes s := by
  unfold ensureIndexes
  refine safe_then (P := fun _ _ => True) ?_ ?_
  · exact safe_rising (K := fun _ => True) act_grows (fun _ _ _ h => h)
      (fun _ _ _ _ _ => trivial) trivial
  · rintro (err | collections) s' -
    · exact fun herr => by cases herr
    · refine safe_mono ?_ _ _ (safe_untilError (K := fun _ => True) act_grows (fun _ _ _ h => h)
        (P := fun entry s => ∀ spec ∈ entry.2, Present spec (S.indexes s entry.1)) ?_
        (fun entry _ s _ => ensureCollection_safe collections entry s) trivial)
      · intro result s' h hok entry hentry
        exact h hok entry (mem_sortedIndexes.mpr hentry)
      · intro entry s s' hup h spec hspec
        exact (h spec hspec).grows hup

end Safety

/-! ### Databases that can be completed -/

/-- The index is there, or neither another index nor a document stands in its way. -/
def Fits (S : Server) (spec : IndexSpec) (s : S.State) (collection : String) : Prop :=
  Present spec (S.indexes s collection) ∨
    Admits (S.indexes s collection) spec.model ∧
      (spec.unique = true → ¬S.Duplicated s collection spec.model)

def Compatible (S : Server) (s : S.State) : Prop :=
  ∀ entry ∈ requiredIndexes, ∀ spec ∈ entry.2, Fits S spec s entry.1

theorem requiredIndexes_names : (requiredIndexes.map Prod.fst).Nodup := by decide

theorem requiredIndexes_distinct : ∀ entry ∈ requiredIndexes,
    (entry.2.map IndexSpec.name).Nodup ∧ (entry.2.map IndexSpec.keys).Nodup := by decide

theorem requiredIndexes_admitted : ∀ entry ∈ requiredIndexes, ∀ spec ∈ entry.2,
    idIndex.name ≠ spec.name ∧ directed idIndex.key ≠ directed spec.model.keys := by decide

/-- The index is the one wanted, or takes neither its name nor its key. -/
def Apart (spec : IndexSpec) (index : ListedIndex) : Prop :=
  index.Meets spec ∨ index.name ≠ spec.name ∧ directed index.key ≠ directed spec.model.keys

/-- What was fitting still is where indexes were added that stand in nobody's way. -/
theorem Fits.adds {spec : IndexSpec} {collection : String} {news : List ListedIndex}
    (hadds : S.Adds collection news s s') (hnews : ∀ index ∈ news, Apart spec index)
    (h : Fits S spec s collection) : Fits S spec s' collection := by
  rcases h with ⟨there, hmem, hmeets⟩ | ⟨hadmits, hdocuments⟩
  · exact .inl ⟨there, (hadds.indexes there).mpr (.inl hmem), hmeets⟩
  by_cases hbuilt : ∃ index ∈ news, index.Meets spec
  · obtain ⟨index, hmem, hmeets⟩ := hbuilt
    exact .inl ⟨index, (hadds.indexes index).mpr (.inr hmem), hmeets⟩
  · refine .inr ⟨fun there hmem => ?_, fun hunique => ?_⟩
    · rcases (hadds.indexes there).mp hmem with hmem | hmem
      · exact hadmits there hmem
      · exact (hnews there hmem).resolve_left fun hmeets => hbuilt ⟨there, hmem, hmeets⟩
    · rw [hadds.documents]
      exact hdocuments hunique

theorem Fits.others {spec : IndexSpec} {collection name : String} {news : List ListedIndex}
    (hadds : S.Adds collection news s s') (hne : name ≠ collection)
    (h : Fits S spec s name) : Fits S spec s' name := by
  unfold Fits at h ⊢
  rw [hadds.others name hne, hadds.documents]
  exact h

theorem idIndex_apart {entry : String × List IndexSpec} (hentry : entry ∈ requiredIndexes)
    {spec : IndexSpec} (hspec : spec ∈ entry.2) : Apart spec idIndex :=
  .inr (requiredIndexes_admitted entry hentry spec hspec)

/-- Where one required index is built no other is shut out. -/
theorem apart_of_matches {entry : String × List IndexSpec} (hentry : entry ∈ requiredIndexes)
    {spec other : IndexSpec} (hspec : spec ∈ entry.2) (hother : other ∈ entry.2)
    {index : ListedIndex} (h : index.Matches other.model) : Apart spec index := by
  obtain ⟨hnames, hkeys⟩ := requiredIndexes_distinct entry hentry
  by_cases hsame : spec = other
  · subst hsame
    exact .inl (ListedIndex.meets_iff.mpr h)
  · refine .inr ⟨fun hname => ?_, fun hkey => ?_⟩
    · have heq : other.name = spec.name := h.name.symm.trans hname
      exact hsame (List.inj_on_of_nodup_map hnames hother hspec heq).symm
    · have heq : other.keys = spec.keys := directed_model_inj (h.keys.symm.trans hkey)
      exact hsame (List.inj_on_of_nodup_map hkeys hother hspec heq).symm

/-- What is added to one collection is looked at for what that collection requires. -/
theorem Compatible.adds (hs : Compatible S s) {collection : String} {news : List ListedIndex}
    (hadds : S.Adds collection news s s')
    (hnews : ∀ entry ∈ requiredIndexes, entry.1 = collection → ∀ spec ∈ entry.2,
      ∀ index ∈ news, Apart spec index) : Compatible S s' := by
  intro entry hentry spec hspec
  by_cases hname : entry.1 = collection
  · have hapart := hnews entry hentry hname spec hspec
    subst hname
    exact (hs entry hentry spec hspec).adds hadds hapart
  · exact (hs entry hentry spec hspec).others hadds hname

theorem Compatible.createOne (hs : Compatible S s) {entry : String × List IndexSpec}
    (hentry : entry ∈ requiredIndexes) {spec : IndexSpec} (hspec : spec ∈ entry.2) :
    Compatible S (S.serve (.createOne entry.1 spec.model) s).2 := by
  rcases S.tells_index s entry.1 spec.model with ⟨index, -, -, hserve⟩ |
    ⟨s', index, hserve, hmatches, hadds⟩ | ⟨err, hserve⟩ <;> rw [hserve]
  · exact hs
  · refine hs.adds hadds fun other hother hname wanted hwanted there hthere => ?_
    obtain rfl := List.inj_on_of_nodup_map requiredIndexes_names hother hentry hname
    have hnews : there = idIndex ∨ there = index := by
      split_ifs at hthere <;> simp_all
    rcases hnews with rfl | rfl
    · exact idIndex_apart hother hwanted
    · exact apart_of_matches hother hwanted hspec hmatches
  · exact hs

theorem Compatible.createCollection (hs : Compatible S s) (name : String) :
    Compatible S (S.serve (.createCollection name) s).2 := by
  rcases S.tells_collection s name with ⟨s', hserve, hadds⟩ | ⟨err, hserve⟩ <;> rw [hserve]
  · refine hs.adds hadds fun entry hentry _ spec hspec index hindex => ?_
    have hnews : index = idIndex := by
      split_ifs at hindex <;> simp_all
    rw [hnews]
    exact idIndex_apart hentry hspec
  · exact hs

/-- The calls that build an index build a required one. -/
def Asks : CatalogOp → Prop
  | .createOne collection m =>
    ∃ entry ∈ requiredIndexes, collection = entry.1 ∧ ∃ s ∈ entry.2, m = s.model
  | _ => True

theorem ensureIndexes_asks : ensureIndexes.Only Asks := by
  refine Prog.only_bind (Prog.only_perform trivial) fun reply => ?_
  cases reply with
  | error err => trivial
  | ok collections =>
    refine Prog.only_untilError fun entry hentry => ?_
    have hentry : entry ∈ requiredIndexes := mem_sortedIndexes.mp hentry
    refine Prog.only_bind ?_ fun created => ?_
    · unfold ensureCreated
      split_ifs
      · trivial
      · exact Prog.only_bind (Prog.only_perform trivial) fun reply => by cases reply <;> trivial
    cases created with
    | error err => trivial
    | ok _ =>
      refine Prog.only_bind ?_ fun result => by cases result <;> trivial
      refine Prog.only_bind (Prog.only_perform trivial) fun reply => ?_
      cases reply with
      | error err => trivial
      | ok current =>
        refine Prog.only_untilError fun s hs => ?_
        unfold ensureIndex
        split
        · trivial
        split
        · trivial
        exact Prog.only_bind (Prog.only_perform ⟨entry, hentry, rfl, s, hs, rfl⟩) fun reply => by
          cases reply <;> trivial

theorem Server.Answers.compatible {op : CatalogOp} {reply : CatalogReply op} (hop : Asks op)
    (h : S.Answers op s reply s') (hs : Compatible S s) : Compatible S s' := by
  have hserved : Compatible S (S.serve op s).2 := by
    cases op with
    | listCollectionNames =>
      rw [S.lists_collections]
      exact hs
    | createCollection name => exact hs.createCollection name
    | listIndexes collection =>
      rw [S.lists_indexes]
      exact hs
    | createOne collection m =>
      obtain ⟨entry, hentry, rfl, spec, hspec, rfl⟩ := hop
      exact hs.createOne hentry hspec
  rcases h with ⟨-, rfl⟩ | ⟨err, -, rfl | rfl⟩
  · exact hserved
  · exact hs
  · exact hserved

/-- Whatever replicas do, crash and lose on the way, the database can still be completed. -/
theorem steps_compatible {ι : Type} {others : S.State → S.State → Prop}
    (hothers : ∀ s s', others s s' → Compatible S s → Compatible S s') (hs : Compatible S s)
    {c : S.Replicas ι} (h : Steps (S.machine ι others) S.starting ⟨s, []⟩ c) :
    Compatible S c.state := by
  rw [← Machine.restrict_true (S.machine ι others)] at h
  have hasks := steps_only (P := fun _ => Asks) (fun _ _ p hp => hp ▸ ensureIndexes_asks)
    (fun t ht => absurd ht List.not_mem_nil) h
  refine steps_related (R := fun s s' => Compatible S s → Compatible S s') (fun _ => id)
    (fun _ _ _ h h' hs => h' (h hs)) ?_ hothers (fun _ _ => id) hasks hs
  intro i op s reply s' hact
  exact Server.Answers.compatible hact.1.2 hact.2

/-! ### A replica by itself -/

section Alone

theorem createOne_of_fits {entry : String × List IndexSpec} (hentry : entry ∈ requiredIndexes)
    {spec : IndexSpec} (hspec : spec ∈ entry.2)
    (hadmits : Admits (S.indexes s entry.1) spec.model)
    (hdocuments : spec.unique = true → ¬S.Duplicated s entry.1 spec.model) :
    ∃ s', S.serve (.createOne entry.1 spec.model) s = (.ok (), s') :=
  ⟨_, Prod.ext (S.creates_index s entry hentry spec hspec hadmits hdocuments) rfl⟩

/-- What one round over an index may change. -/
structure Rounded (S : Server) (collection : String) (spec : IndexSpec) (s s' : S.State) :
    Prop where
  grows : S.Grows s s'
  indexes : ∀ index ∈ S.indexes s' collection,
    index ∈ S.indexes s collection ∨ index = idIndex ∨ index.name = spec.name
  collections : ∀ name ∈ S.collections s', name ∈ S.collections s ∨ name = collection

theorem rounded_refl (collection : String) (spec : IndexSpec) (s : S.State) :
    Rounded S collection spec s s :=
  ⟨.refl s, fun _ h => .inl h, fun _ h => .inl h⟩

theorem rounded_createOne {collection : String} {spec : IndexSpec}
    (h : S.serve (.createOne collection spec.model) s = (.ok (), s')) :
    Rounded S collection spec s s' := by
  rcases S.tells_index s collection spec.model with ⟨index, -, -, hserve⟩ |
    ⟨_, index, hserve, hmatches, hadds⟩ | ⟨err, hserve⟩ <;> rw [h] at hserve <;> cases hserve
  · exact rounded_refl collection spec s
  · refine ⟨Server.grows_of_adds hadds, fun there hmem => ?_,
      fun name => (hadds.collections name).mp⟩
    refine ((hadds.indexes there).mp hmem).imp_right fun hmem => ?_
    have hnews : there = idIndex ∨ there = index := by
      split_ifs at hmem <;> simp_all
    rcases hnews with hid | hbuilt
    · exact .inl hid
    · exact .inr (hbuilt ▸ hmatches.name)

/-- A round over a listing that is out of date only by indexes of other names leaves the index
that is there, or builds it. -/
theorem run_ensureIndex {entry : String × List IndexSpec} (hentry : entry ∈ requiredIndexes)
    {spec : IndexSpec} (hspec : spec ∈ entry.2) {current : List ListedIndex}
    (hfits : Fits S spec s entry.1)
    (hcurrent : ∀ index ∈ current, index ∈ S.indexes s entry.1)
    (hlisted : ∀ index ∈ S.indexes s entry.1, index ∈ current ∨ index.name ≠ spec.name) :
    (Present spec (S.indexes s entry.1) ∧
      (ensureIndex entry.1 current spec).run S.serve s = (.ok (), s)) ∨
    ∃ s', S.serve (.createOne entry.1 spec.model) s = (.ok (), s') ∧
      (ensureIndex entry.1 current spec).run S.serve s = (.ok (), s') := by
  unfold ensureIndex
  rcases byName_cases current spec.name with ⟨index, hmem, hname, hfound⟩ | ⟨hfound, hnone⟩
  · -- names are distinct, so the index that was found is the one that fits
    rcases hfits with ⟨other, hother, hmeets⟩ | ⟨hadmits, -⟩
    · have hsame : other = index := List.inj_on_of_nodup_map (S.distinct s entry.1) hother
        (hcurrent index hmem) (hmeets.name.trans hname.symm)
      rw [hfound]
      exact .inl ⟨⟨other, hother, hmeets⟩,
        congrArg (·, s) ((compareIndex_ok hname).mpr (hsame ▸ hmeets))⟩
    · exact absurd hname (hadmits index (hcurrent index hmem)).1
  · obtain ⟨hadmits, hdocuments⟩ := hfits.resolve_left (by
      rintro ⟨index, hmem, hmeets⟩
      rcases hlisted index hmem with hold | hother
      · exact hnone index hold hmeets.name
      · exact hother hmeets.name)
    have hfree : (current.find? fun existing =>
        existing.name != "_id_" && equalKeys existing.key spec.bsonKeys) = none := by
      refine List.find?_eq_none.mpr fun index hmem => ?_
      have hkeys : equalKeys index.key spec.bsonKeys = false := by
        rw [← Bool.not_eq_true, equalKeys_iff]
        exact (hadmits index (hcurrent index hmem)).2
      simp [hkeys]
    obtain ⟨s', hserve⟩ := createOne_of_fits hentry hspec hadmits hdocuments
    rw [hfound, hfree]
    refine .inr ⟨s', hserve, ?_⟩
    simp only [Prog.bind_eq_bind, createOne, Prog.perform_bind, Prog.run_call, hserve]
    rfl

theorem run_ensureCollectionIndexes {entry : String × List IndexSpec}
    (hentry : entry ∈ requiredIndexes) (hs : Compatible S s) :
    ((ensureCollectionIndexes entry.1 entry.2).run S.serve s).1 = .ok () ∧
      Compatible S ((ensureCollectionIndexes entry.1 entry.2).run S.serve s).2 ∧
      ∀ name ∈ S.collections ((ensureCollectionIndexes entry.1 entry.2).run S.serve s).2,
        name ∈ S.collections s ∨ name = entry.1 := by
  have hloop := Prog.run_untilError S.serve (ensureIndex entry.1 (S.indexes s entry.1)) entry.2
    (fun done t => Compatible S t ∧
      (∀ index ∈ S.indexes s entry.1, index ∈ S.indexes t entry.1) ∧
      (∀ index ∈ S.indexes t entry.1,
        index ∈ S.indexes s entry.1 ∨ index = idIndex ∨ index.name ∈ done.map IndexSpec.name) ∧
      ∀ name ∈ S.collections t, name ∈ S.collections s ∨ name = entry.1)
    ?_ ⟨hs, fun _ h => h, fun _ h => .inl h, fun _ h => .inl h⟩
  · have hlisted : (ensureCollectionIndexes entry.1 entry.2).run S.serve s =
        (Prog.untilError (ensureIndex entry.1 (S.indexes s entry.1)) entry.2).run S.serve s := by
      simp only [ensureCollectionIndexes, listIndexes, Prog.bind_eq_bind, Prog.perform_bind,
        Prog.run_call, S.lists_indexes]
    rw [hlisted]
    exact ⟨hloop.1, hloop.2.1, hloop.2.2.2.2⟩
  · rintro done spec rest hall t ⟨ht, hkept, hmade, hnames⟩
    have hspec : spec ∈ entry.2 := hall ▸ by simp
    have hnew : spec.name ∉ done.map IndexSpec.name :=
      Prog.fresh_of_nodup hall (requiredIndexes_distinct entry hentry).1
    have hround : ∃ t', (ensureIndex entry.1 (S.indexes s entry.1) spec).run S.serve t =
        (.ok (), t') ∧ Compatible S t' ∧ Rounded S entry.1 spec t t' := by
      have hlisted : ∀ index ∈ S.indexes t entry.1,
          index ∈ S.indexes s entry.1 ∨ index.name ≠ spec.name := by
        intro index hmem
        rcases hmade index hmem with hold | rfl | hdone
        · exact .inl hold
        · exact .inr (requiredIndexes_admitted entry hentry spec hspec).1
        · exact .inr fun hname => hnew (hname ▸ hdone)
      rcases run_ensureIndex hentry hspec (ht entry hentry spec hspec) hkept hlisted with
        ⟨-, hrun⟩ | ⟨t', hserve, hrun⟩
      · exact ⟨t, hrun, ht, rounded_refl entry.1 spec t⟩
      · have hcompatible := ht.createOne hentry hspec
        rw [hserve] at hcompatible
        exact ⟨t', hrun, hcompatible, rounded_createOne hserve⟩
    obtain ⟨t', hrun, ht', hround⟩ := hround
    rw [hrun]
    refine ⟨rfl, ht', ?_, ?_, ?_⟩
    · exact fun index hmem => (hround.grows entry.1).2 index (hkept index hmem)
    · intro index hmem
      rw [List.map_append, List.mem_append]
      rcases hround.indexes index hmem with hmem | hid | hname
      · exact (hmade index hmem).imp_right (·.imp_right .inl)
      · exact .inr (.inl hid)
      · exact .inr (.inr (.inr (by simp [hname])))
    · exact fun name hmem => (hround.collections name hmem).elim (hnames name) .inr

theorem sortedIndexes_names : (sortedIndexes.map Prod.fst).Nodup :=
  ((sortSlice_perm _ _).map _).nodup_iff.mpr requiredIndexes_names

theorem run_ensureCreated {collections : List String} {entry : String × List IndexSpec}
    (hentry : entry ∈ requiredIndexes) (hs : Compatible S s)
    (hnew : entry.1 ∈ S.collections s → entry.1 ∈ collections) :
    ((ensureCreated collections entry.1).run S.serve s).1 = .ok () ∧
      Compatible S ((ensureCreated collections entry.1).run S.serve s).2 ∧
      ∀ name ∈ S.collections ((ensureCreated collections entry.1).run S.serve s).2,
        name ∈ S.collections s ∨ name = entry.1 := by
  unfold ensureCreated
  split_ifs with hlisted
  · exact ⟨rfl, hs, fun _ h => .inl h⟩
  · have hok := S.creates_collection s entry hentry fun hmem => hlisted (hnew hmem)
    have hcompatible := hs.createCollection entry.1
    rcases S.tells_collection s entry.1 with ⟨s', hserve, hadds⟩ | ⟨err, hserve⟩
    · rw [hserve] at hcompatible
      simp only [Prog.bind_eq_bind, createCollection, Prog.perform_bind, Prog.run_call, hserve]
      exact ⟨rfl, hcompatible, fun name => (hadds.collections name).mp⟩
    · rw [hserve] at hok
      cases hok

theorem run_listed (s : S.State) : ensureIndexes.run S.serve s =
    (Prog.untilError (ensureCollection (S.collections s)) sortedIndexes).run S.serve s := by
  simp only [ensureIndexes, listCollectionNames, Prog.bind_eq_bind, Prog.perform_bind,
    Prog.run_call, S.lists_collections]

/-- From a database that can be completed, a replica by itself succeeds. -/
theorem run_ensureIndexes (hs : Compatible S s) : (ensureIndexes.run S.serve s).1 = .ok () := by
  have hloop := Prog.run_untilError S.serve (ensureCollection (S.collections s)) sortedIndexes
    (fun done t => Compatible S t ∧
      ∀ name ∈ S.collections t, name ∈ S.collections s ∨ name ∈ done.map Prod.fst)
    ?_ ⟨hs, fun _ h => .inl h⟩
  · rw [run_listed]
    exact hloop.1
  · rintro done entry rest hall t ⟨ht, hnames⟩
    have hentry : entry ∈ requiredIndexes :=
      mem_sortedIndexes.mp (hall ▸ List.mem_append_right done List.mem_cons_self)
    have hnew : entry.1 ∉ done.map Prod.fst := Prog.fresh_of_nodup hall sortedIndexes_names
    obtain ⟨hcreated, ht', hmade⟩ := run_ensureCreated hentry ht
      fun hmem => (hnames entry.1 hmem).resolve_right hnew
    obtain ⟨hensured, ht'', hmade'⟩ := run_ensureCollectionIndexes hentry ht'
    simp only [ensureCollection, Prog.bind_eq_bind, Prog.run_bind, hcreated, hensured]
    refine ⟨rfl, ht'', fun name hmem => ?_⟩
    rw [List.map_append, List.mem_append]
    have hold : name ∈ S.collections t ∨ name = entry.1 :=
      (hmade' name hmem).elim (hmade name) .inr
    rcases hold with hold | rfl
    · exact (hnames name hold).imp_right .inl
    · exact .inr (.inr (by simp))

theorem Provided.exists {entry : String × List IndexSpec} (h : Provided S s)
    (hentry : entry ∈ requiredIndexes) : entry.1 ∈ S.collections s := by
  have hsome : ∀ entry ∈ requiredIndexes, entry.2 ≠ [] := by decide
  obtain ⟨spec, hspec⟩ := List.exists_mem_of_ne_nil entry.2 (hsome entry hentry)
  obtain ⟨index, hmem, -⟩ := h entry hentry spec hspec
  by_contra hnone
  rw [S.indexes_absent s entry.1 hnone] at hmem
  exact absurd hmem List.not_mem_nil

/-- A round over an index that is there changes nothing. -/
theorem run_ensureIndex_idle {collection : String} {spec : IndexSpec}
    (h : Present spec (S.indexes s collection)) :
    (ensureIndex collection (S.indexes s collection) spec).run S.serve s = (.ok (), s) := by
  unfold ensureIndex
  obtain ⟨index, hmem, hmeets⟩ := h
  rcases byName_cases (S.indexes s collection) spec.name with ⟨other, hother, hname, hfound⟩ |
    ⟨-, hnone⟩
  · have hsame : index = other := List.inj_on_of_nodup_map (S.distinct s collection) hmem hother
      (hmeets.name.trans hname.symm)
    rw [hfound]
    exact congrArg (·, s) ((compareIndex_ok hname).mpr (hsame ▸ hmeets))
  · exact absurd hmeets.name (hnone index hmem)

theorem run_ensureCollection_idle {entry : String × List IndexSpec} (h : Provided S s)
    (hentry : entry ∈ requiredIndexes) :
    (ensureCollection (S.collections s) entry).run S.serve s = (.ok (), s) := by
  have hloop := Prog.run_untilError S.serve (ensureIndex entry.1 (S.indexes s entry.1))
    entry.2 (fun _ t => t = s) ?_ rfl
  · have hensured : (ensureCollectionIndexes entry.1 entry.2).run S.serve s = (.ok (), s) := by
      simp only [ensureCollectionIndexes, listIndexes, Prog.bind_eq_bind, Prog.perform_bind,
        Prog.run_call, S.lists_indexes]
      exact Prod.ext hloop.1 hloop.2
    have hcreated : (ensureCreated (S.collections s) entry.1).run S.serve s = (.ok (), s) := by
      rw [ensureCreated, if_pos (h.exists hentry)]
      rfl
    simp only [ensureCollection, Prog.bind_eq_bind, Prog.run_bind, hcreated, hensured]
    rfl
  · rintro done spec rest hall t rfl
    have hspec : spec ∈ entry.2 := hall ▸ by simp
    rw [run_ensureIndex_idle (h entry hentry spec hspec)]
    exact ⟨rfl, rfl⟩

/-- A replica leaves a database that has everything as it is. -/
theorem run_ensureIndexes_idle (h : Provided S s) :
    ensureIndexes.run S.serve s = (.ok (), s) := by
  have hloop := Prog.run_untilError S.serve (ensureCollection (S.collections s)) sortedIndexes
    (fun _ t => t = s) ?_ rfl
  · rw [run_listed]
    exact Prod.ext hloop.1 hloop.2
  · rintro done entry rest hall t rfl
    rw [run_ensureCollection_idle h
      (mem_sortedIndexes.mp (hall ▸ List.mem_append_right done List.mem_cons_self))]
    exact ⟨rfl, rfl⟩

end Alone

section Replicas

variable {ι : Type} {others : S.State → S.State → Prop}

theorem serve_answers (op : CatalogOp) (s : S.State) :
    S.Answers op s (S.serve op s).1 (S.serve op s).2 :=
  .inl ⟨rfl, rfl⟩

theorem run_provided (h : (ensureIndexes.run S.serve s).1 = .ok ()) :
    Provided S (ensureIndexes.run S.serve s).2 :=
  safe_run (M := S.machine Unit fun _ _ => False) (i := ()) (C := additive S) serve_answers
    trivial (ensureIndexes_safe s) h

/-- Where nothing takes indexes away, a replica that was told that all is well finds every
required index from then on, whatever other replicas do, lose and leave half done. -/
theorem ensured_provided (hothers : ∀ s s', others s s' → S.Grows s s') {c c' : S.Replicas ι}
    (h : Steps (S.machine ι others) S.starting ⟨s, []⟩ c) {i : ι}
    (hret : (i, .ret (.ok ())) ∈ c.threads)
    (h' : Steps (S.machine ι others) S.starting c c') :
    Provided S c'.state ∧ S.Grows s c'.state := by
  constructor
  · refine steps_rising Server.Grows.refl Server.Grows.trans
      (Q := fun result s' => result = .ok () → Provided S s') act_grows hothers
      (fun _ => Server.Grows.refl) ?_ ?_ h hret h' rfl
    · exact fun _ _ _ hup hprovided hok entry hentry spec hspec =>
        (hprovided hok entry hentry spec hspec).grows hup
    · rintro s i p rfl
      exact ensureIndexes_safe s
  · exact steps_related Server.Grows.refl Server.Grows.trans act_grows hothers
      (fun _ => Server.Grows.refl) (h.trans h')

/-- However replicas crashed over it, a database that can be completed is completed by the next
replica that is left alone, and the ones after it change nothing. -/
theorem ensured_converges (hothers : ∀ s s', others s s' → Compatible S s → Compatible S s')
    (hs : Compatible S s) {c : S.Replicas ι}
    (h : Steps (S.machine ι others) S.starting ⟨s, []⟩ c) :
    ∃ s', ensureIndexes.run S.serve c.state = (.ok (), s') ∧ Provided S s' ∧
      ensureIndexes.run S.serve s' = (.ok (), s') := by
  have hok := run_ensureIndexes (steps_compatible hothers hs h)
  have hprovided := run_provided hok
  exact ⟨(ensureIndexes.run S.serve c.state).2, Prod.ext hok rfl, hprovided,
    run_ensureIndexes_idle hprovided⟩

end Replicas

/-! ### A database in memory -/

/-- The indexes of the collections there are, and the collections and keys in which documents
agree. -/
structure Catalog where
  collections : List String
  contents : String → List ListedIndex
  duplicated : List (String × List (String × Int))
  distinct : ∀ name, ((contents name).map ListedIndex.name).Nodup
  absent : ∀ name, name ∉ collections → contents name = []

namespace Catalog

def empty : Catalog where
  collections := []
  contents _ := []
  duplicated := []
  distinct _ := List.nodup_nil
  absent _ _ := rfl

/-- A collection gains indexes of new names. -/
def put (c : Catalog) (name : String) (news : List ListedIndex)
    (h : ((c.contents name ++ news).map ListedIndex.name).Nodup) : Catalog where
  collections := if name ∈ c.collections then c.collections else c.collections ++ [name]
  contents := Function.update c.contents name (c.contents name ++ news)
  duplicated := c.duplicated
  distinct other := by
    by_cases hother : other = name
    · subst hother
      rwa [Function.update_self]
    · rw [Function.update_of_ne hother]
      exact c.distinct other
  absent other hother := by
    have hname : other ≠ name := by
      rintro rfl
      split_ifs at hother with hmem
      · exact hother hmem
      · simp at hother
    rw [Function.update_of_ne hname]
    refine c.absent other fun hmem => hother ?_
    split_ifs
    · exact hmem
    · exact List.mem_append_left _ hmem

/-- An index as it is listed once it is built. -/
def listed (m : IndexModel) : ListedIndex where
  name := m.name
  key := m.keys
  unique := m.unique
  expireAfterSeconds := m.expireAfterSeconds

theorem listed_matches (m : IndexModel) : (listed m).Matches m := ⟨rfl, rfl, rfl, rfl⟩

def createCollection (c : Catalog) (name : String) : Except Err Unit × Catalog :=
  if h : name ∈ c.collections then (.error ⟨"NamespaceExists", none⟩, c)
  else (.ok (), c.put name [idIndex] (by simp [c.absent name h]))

/-- What is built with an index. -/
def built (c : Catalog) (name : String) (m : IndexModel) : List ListedIndex :=
  if name ∈ c.collections then [listed m] else [idIndex, listed m]

/-- Nothing is built where the name or the key is taken, nor a unique index over documents that
agree. -/
def createOne (c : Catalog) (name : String) (m : IndexModel) : Except Err Unit × Catalog :=
  if (c.contents name).any fun index =>
      decide (index.name = m.name) || decide (directed index.key = directed m.keys) then
    (.error ⟨"IndexOptionsConflict", none⟩, c)
  else if m.unique = true ∧ (name, directed m.keys) ∈ c.duplicated then
    (.error ⟨"E11000", none⟩, c)
  else if h : ((c.contents name ++ c.built name m).map ListedIndex.name).Nodup then
    (.ok (), c.put name (c.built name m) h)
  else (.error ⟨"IndexOptionsConflict", none⟩, c)

def database : Database where
  State := Catalog
  collections := Catalog.collections
  indexes := Catalog.contents
  Duplicated c name m := (name, directed m.keys) ∈ c.duplicated
  serve
    | .listCollectionNames, c => (.ok c.collections, c)
    | .createCollection name, c => c.createCollection name
    | .listIndexes name, c => (.ok (c.contents name), c)
    | .createOne name m, c => c.createOne name m

theorem put_adds (c : Catalog) (name : String) (news : List ListedIndex)
    (h : ((c.contents name ++ news).map ListedIndex.name).Nodup) :
    database.Adds name news c (c.put name news h) where
  collections other := by
    change other ∈ (if name ∈ c.collections then c.collections else c.collections ++ [name]) ↔
      other ∈ c.collections ∨ other = name
    split_ifs with hname
    · exact ⟨.inl, fun h => h.elim id fun h => h ▸ hname⟩
    · simp
  indexes index := by
    change index ∈ Function.update c.contents name _ name ↔ _
    rw [Function.update_self]
    exact List.mem_append
  others other hother := Function.update_of_ne hother _ _
  documents _ _ := Iff.rfl

theorem createCollection_ok {c : Catalog} {name : String} (h : name ∉ c.collections) :
    (c.createCollection name).1 = .ok () := by
  rw [createCollection, dif_neg h]

theorem createCollection_tells (c : Catalog) (name : String) :
    (∃ c', c.createCollection name = (.ok (), c') ∧
      database.Adds name (if name ∈ c.collections then [] else [idIndex]) c c') ∨
    ∃ err, c.createCollection name = (.error err, c) := by
  unfold createCollection
  split_ifs with hname
  · exact .inr ⟨_, rfl⟩
  · exact .inl ⟨_, rfl, put_adds c name _ _⟩

theorem built_distinct {c : Catalog} {name : String} {m : IndexModel}
    (hadmits : Admits (c.contents name) m) (hid : idIndex.name ≠ m.name) :
    ((c.contents name ++ c.built name m).map ListedIndex.name).Nodup := by
  unfold built
  split_ifs with hname
  · rw [List.map_append]
    refine List.nodup_append.mpr ⟨c.distinct name, List.nodup_singleton _, ?_⟩
    intro taken htaken other hother
    obtain ⟨index, hmem, rfl⟩ := List.mem_map.mp htaken
    rw [List.mem_singleton.mp hother]
    exact (hadmits index hmem).1
  · rw [c.absent name hname]
    simpa [listed] using hid

theorem createOne_ok {c : Catalog} {name : String} {m : IndexModel}
    (hadmits : Admits (c.contents name) m) (hid : idIndex.name ≠ m.name)
    (hdocuments : m.unique = true → (name, directed m.keys) ∉ c.duplicated) :
    (c.createOne name m).1 = .ok () := by
  have hfree : ¬((c.contents name).any fun index =>
      decide (index.name = m.name) || decide (directed index.key = directed m.keys)) = true := by
    rw [List.any_eq_true]
    rintro ⟨index, hmem, htaken⟩
    rw [Bool.or_eq_true, decide_eq_true_iff, decide_eq_true_iff] at htaken
    exact htaken.elim (hadmits index hmem).1 (hadmits index hmem).2
  rw [createOne, if_neg hfree, if_neg fun h => hdocuments h.1 h.2,
    dif_pos (built_distinct hadmits hid)]

theorem createOne_tells (c : Catalog) (name : String) (m : IndexModel) :
    (∃ c', c.createOne name m = (.ok (), c') ∧ database.Adds name (c.built name m) c c') ∨
      ∃ err, c.createOne name m = (.error err, c) := by
  unfold createOne
  split_ifs
  · exact .inr ⟨_, rfl⟩
  · exact .inr ⟨_, rfl⟩
  · exact .inl ⟨_, rfl, put_adds c name _ _⟩
  · exact .inr ⟨_, rfl⟩

def server : Server where
  toDatabase := database
  distinct := Catalog.distinct
  indexes_absent := Catalog.absent
  lists_collections _ := rfl
  lists_indexes _ _ := rfl
  creates_collection _ _ _ := createCollection_ok
  tells_collection := createCollection_tells
  creates_index _ entry hentry spec hspec hadmits :=
    createOne_ok hadmits (requiredIndexes_admitted entry hentry spec hspec).1
  tells_index c name m := .inr ((createOne_tells c name m).imp_left
    fun ⟨c', hserve, hadds⟩ => ⟨c', listed m, hserve, listed_matches m, hadds⟩)

end Catalog

theorem compatible_empty : Compatible Catalog.server Catalog.empty :=
  fun _ _ _ _ => .inr ⟨fun _ h => absurd h List.not_mem_nil, fun _ => List.not_mem_nil⟩

/-- The first replica over an empty database. -/
theorem ensured_provided_empty :
    Provided Catalog.server (ensureIndexes.run Catalog.server.serve Catalog.empty).2 := by
  have hstart : Step (Catalog.server.machine Nat fun _ _ => False) Catalog.server.starting
      ⟨Catalog.empty, []⟩ ⟨Catalog.empty, [(0, ensureIndexes)]⟩ :=
    .start _ [] 0 ensureIndexes rfl (by simp)
  have hrun : Steps (Catalog.server.machine Nat fun _ _ => False) Catalog.server.starting
      ⟨Catalog.empty, [(0, ensureIndexes)]⟩
      ⟨(ensureIndexes.run Catalog.server.serve Catalog.empty).2,
        [(0, .ret (ensureIndexes.run Catalog.server.serve Catalog.empty).1)]⟩ :=
    steps_run (serve_answers (S := Catalog.server)) ensureIndexes Catalog.empty
  rw [run_ensureIndexes compatible_empty] at hrun
  exact (ensured_provided (fun _ _ h => h.elim) (.head hstart hrun) List.mem_cons_self .refl).1

/-- The calls take effect and their answers are lost. -/
def losing (op : CatalogOp) (c : Catalog) : CatalogReply op × Catalog :=
  (.error ⟨"EOF", none⟩, (Catalog.server.serve op c).2)

theorem losing_answers (op : CatalogOp) (c : Catalog) :
    Catalog.server.Answers op c (losing op c).1 (losing op c).2 :=
  .inr ⟨_, rfl, .inr rfl⟩

/-- A replica creates a collection, does not hear of it and gives up. -/
theorem ensured_converges_lost :
    ∃ c', ensureIndexes.run Catalog.server.serve
        (Catalog.empty.createCollection "evaluations").2 = (.ok (), c') ∧
      Provided Catalog.server c' ∧
      ensureIndexes.run Catalog.server.serve c' = (.ok (), c') := by
  have hstart : Step (Catalog.server.machine Nat fun _ _ => False) Catalog.server.starting
      ⟨Catalog.empty, []⟩ ⟨Catalog.empty, [(0, ensureIndexes)]⟩ :=
    .start _ [] 0 ensureIndexes rfl (by simp)
  have hlisted : ensureIndexes.advance (fun _ _ => true) Catalog.server.serve 1 Catalog.empty =
      some (Prog.untilError (ensureCollection []) sortedIndexes, Catalog.empty) := rfl
  have hlost : (Prog.untilError (ensureCollection []) sortedIndexes).advance (fun _ _ => true)
      losing 1 Catalog.empty =
        some (.ret (.error (.createCollection "evaluations" ⟨"EOF", none⟩)),
          (Catalog.empty.createCollection "evaluations").2) := rfl
  have hsteps : Steps (Catalog.server.machine Nat fun _ _ => False) Catalog.server.starting
      ⟨Catalog.empty, [(0, ensureIndexes)]⟩
      ⟨(Catalog.empty.createCollection "evaluations").2,
        [(0, .ret (.error (.createCollection "evaluations" ⟨"EOF", none⟩)))]⟩ :=
    (steps_advance (fun op c _ => serve_answers op c) hlisted [] []).trans
      (steps_advance (fun op c _ => losing_answers op c) hlost [] [])
  exact ensured_converges (fun _ _ h => h.elim) compatible_empty (.head hstart hsteps)

end RuleRaven.Mongo
