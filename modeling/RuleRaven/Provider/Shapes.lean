import RuleRaven.Framework.JsonSchema
import RuleRaven.Provider.Schema

namespace RuleRaven.Provider

open Framework JsonSchema

section Schemas

variable {d : Document}

theorem valid_mapObject_iff {entries : List (String × Json)} :
    Valid (mapObject entries) d ↔ Valid (.obj entries) d :=
  valid_congr fun _ => (sortSlice_perm _ _).mem_iff

/-- Each member is as its schema says. -/
def Follow (members : List (String × Document)) (properties : List (String × Json)) : Prop :=
  ∀ name schema value, (name, schema) ∈ properties → (name, value) ∈ members → Valid schema value

theorem follow_nil (members : List (String × Document)) : Follow members [] := by
  intro name schema value hschema
  cases hschema

theorem follow_cons {members : List (String × Document)} {properties : List (String × Json)}
    {name : String} {schema : Json} : Follow members ((name, schema) :: properties) ↔
      (∀ value, (name, value) ∈ members → Valid schema value) ∧ Follow members properties := by
  constructor
  · intro h
    exact ⟨fun value => h name schema value List.mem_cons_self,
      fun name' schema' value hschema => h name' schema' value (List.mem_cons_of_mem _ hschema)⟩
  · rintro ⟨hfirst, hrest⟩ name' schema' value hschema
    rcases List.mem_cons.mp hschema with heq | hschema
    · obtain ⟨rfl, rfl⟩ := Prod.mk.inj heq
      exact hfirst value
    · exact hrest name' schema' value hschema

/-- All objects of the schemas are closed, and all their properties are required. -/
theorem valid_closed_mapObject_iff {required : List String}
    {properties annotations : List (String × Json)}
    (hall : ∀ name, name ∈ required ↔ name ∈ properties.map Prod.fst)
    (hannotations : ∀ e ∈ annotations, e.1 ∉ restricting) :
    Valid (mapObject ([("type", .str "object"), ("additionalProperties", .bool false),
      ("required", .arr (required.map .str)), ("properties", mapObject properties)] ++
        annotations)) d ↔ ∃ members, d = .obj members ∧
          (∀ name, name ∈ members.map Prod.fst ↔ name ∈ required) ∧ Follow members properties := by
  have hmem : ∀ property, property ∈ sortSlice (fun a b : String × Json => a.1 < b.1) properties ↔
      property ∈ properties := fun _ => (sortSlice_perm _ _).mem_iff
  have hclosed : Valid (.obj (closed required
      (sortSlice (fun a b : String × Json => a.1 < b.1) properties) ++ annotations)) d ↔ _ :=
    valid_closed_iff hannotations
  rw [valid_mapObject_iff]
  refine hclosed.trans (exists_congr fun members => and_congr_right fun _ => ?_)
  simp only [hmem]
  constructor
  · rintro ⟨hrequired, hdeclared, hvalid⟩
    refine ⟨fun name => ⟨fun hname => ?_, hrequired name⟩, fun name schema value hschema hvalue =>
      hvalid _ hvalue schema hschema⟩
    obtain ⟨e, he, rfl⟩ := List.mem_map.mp hname
    obtain ⟨schema, hschema⟩ := hdeclared e he
    exact (hall _).mpr (List.mem_map_of_mem hschema)
  · rintro ⟨hnames, hvalid⟩
    refine ⟨fun name => (hnames name).mpr, fun e he => ?_, fun e he schema hschema =>
      hvalid e.1 schema e.2 hschema he⟩
    obtain ⟨property, hproperty, heq⟩ :=
      List.mem_map.mp ((hall _).mp ((hnames _).mp (List.mem_map_of_mem he)))
    exact ⟨property.2, heq ▸ hproperty⟩

theorem valid_strictObject_iff {required : List String} {properties : List (String × Json)}
    (hall : ∀ name, name ∈ required ↔ name ∈ properties.map Prod.fst) :
    Valid (strictObject required properties) d ↔
      ∃ members, d = .obj members ∧
        (∀ name, name ∈ members.map Prod.fst ↔ name ∈ required) ∧ Follow members properties :=
  valid_closed_mapObject_iff hall (List.forall_mem_nil _)

theorem valid_unitNumber_iff :
    Valid unitNumber d ↔ ∃ n, d = .num n ∧ 0 ≤ n.value ∧ n.value ≤ 1 := by
  rw [unitNumber, valid_mapObject_iff, valid_number_iff]
  simp

theorem valid_constString_iff {value : String} : Valid (constString value) d ↔ d = .str value := by
  rw [constString, valid_mapObject_iff, valid_const_iff]

/-- A distribution over the keys, each of which has a number between 0 and 1. -/
theorem valid_probabilityObject_iff {keys : List String} :
    Valid (probabilityObject keys) d ↔
      ∃ members, d = .obj members ∧ (∀ name, name ∈ members.map Prod.fst ↔ name ∈ keys) ∧
        ∀ e ∈ members, ∃ n, e.2 = .num n ∧ 0 ≤ n.value ∧ n.value ≤ 1 := by
  unfold probabilityObject
  rw [valid_strictObject_iff (by simp)]
  refine exists_congr fun members => and_congr_right fun _ => and_congr_right fun hnames => ?_
  constructor
  · intro h e he
    have hkey := (hnames e.1).mp (List.mem_map_of_mem he)
    exact valid_unitNumber_iff.mp (h e.1 unitNumber e.2 (List.mem_map_of_mem hkey) he)
  · intro h name schema value hschema hvalue
    obtain ⟨key, -, heq⟩ := List.mem_map.mp hschema
    rw [← (Prod.mk.inj heq).2]
    exact valid_unitNumber_iff.mpr (h _ hvalue)

theorem mem_levelKeys {question : Question} {key : String} :
    key ∈ levelKeys question ↔ ∃ k < question.levels.length, Nat.repr k = key := by
  simp [levelKeys]

/-- A legend that has each level under its index. -/
theorem valid_legend_iff {question : Question} :
    Valid (strictObject (levelKeys question)
      ((levelKeys question).zip (question.levels.map constString))) d ↔
      ∃ members, d = .obj members ∧
        (∀ name, name ∈ members.map Prod.fst ↔ name ∈ levelKeys question) ∧
        ∀ k (hk : k < question.levels.length), ∀ value, (Nat.repr k, value) ∈ members →
          value = .str question.levels[k] := by
  have hzip : ∀ name schema, (name, schema) ∈
      (levelKeys question).zip (question.levels.map constString) ↔
        ∃ k, ∃ hk : k < question.levels.length, Nat.repr k = name ∧
          constString question.levels[k] = schema := by
    intro name schema
    simp [List.mem_iff_getElem, List.getElem_zip, levelKeys]
  have hkeys : ∀ name, name ∈ levelKeys question ↔
      name ∈ ((levelKeys question).zip (question.levels.map constString)).map Prod.fst := by
    intro name
    rw [List.map_fst_zip (by simp [levelKeys])]
  rw [valid_strictObject_iff hkeys]
  refine exists_congr fun members => and_congr_right fun _ => and_congr_right fun _ => ?_
  constructor
  · intro h k hk value hvalue
    exact valid_constString_iff.mp (h _ _ value ((hzip _ _).mpr ⟨k, hk, rfl, rfl⟩) hvalue)
  · intro h name schema value hschema hvalue
    obtain ⟨k, hk, rfl, rfl⟩ := (hzip _ _).mp hschema
    exact valid_constString_iff.mpr (h k hk value hvalue)

variable {question : Question}

/-- The schema of each type of answer. -/
theorem valid_noul_iff (htype : question.type = .noul) : Valid (answerSchemaFor question) d ↔
    ∃ members, d = .obj members ∧
      (∀ name, name ∈ members.map Prod.fst ↔ name ∈ ["type", "noul"]) ∧
      (∀ value, ("type", value) ∈ members → value = .str "noul") ∧
      ∀ value, ("noul", value) ∈ members → ∃ n, value = .num n ∧ 0 ≤ n.value ∧ n.value ≤ 1 := by
  unfold answerSchemaFor
  rw [htype]
  dsimp only
  rw [valid_strictObject_iff (by simp)]
  refine exists_congr fun members => and_congr_right fun _ => and_congr_right fun _ => ?_
  simp only [follow_cons, follow_nil, and_true, valid_constString_iff, valid_unitNumber_iff]

theorem valid_choice_iff (htype : question.type = .choice) : Valid (answerSchemaFor question) d ↔
    ∃ members, d = .obj members ∧
      (∀ name, name ∈ members.map Prod.fst ↔
        name ∈ ["type", "choice", "probabilities", "confidence"]) ∧
      (∀ value, ("type", value) ∈ members → value = .str "choice") ∧
      (∀ value, ("choice", value) ∈ members →
        ∃ choice ∈ question.criteria.keys, value = .str choice) ∧
      (∀ value, ("probabilities", value) ∈ members →
        Valid (probabilityObject question.criteria.keys) value) ∧
      ∀ value, ("confidence", value) ∈ members →
        ∃ n, value = .num n ∧ 0 ≤ n.value ∧ n.value ≤ 1 := by
  have henum : ∀ {value : Document}, Valid (mapObject [("type", .str "string"),
      ("enum", .arr (question.criteria.keys.map .str))]) value ↔
      ∃ choice ∈ question.criteria.keys, value = .str choice := by
    intro value
    rw [valid_mapObject_iff, valid_enum_iff]
  unfold answerSchemaFor
  rw [htype]
  dsimp only
  rw [valid_strictObject_iff (by simp)]
  refine exists_congr fun members => and_congr_right fun _ => and_congr_right fun _ => ?_
  simp only [follow_cons, follow_nil, and_true, valid_constString_iff, valid_unitNumber_iff, henum]

theorem valid_score_iff (htype : question.type = .score) : Valid (answerSchemaFor question) d ↔
    ∃ members, d = .obj members ∧
      (∀ name, name ∈ members.map Prod.fst ↔
        name ∈ ["type", "score", "legend", "probabilities", "confidence"]) ∧
      (∀ value, ("type", value) ∈ members → value = .str "score") ∧
      (∀ value, ("score", value) ∈ members → ∃ n, value = .num n ∧ 0 ≤ n.value ∧
        n.value ≤ (question.levels.length : ℚ) - 1) ∧
      (∀ value, ("legend", value) ∈ members → Valid (strictObject (levelKeys question)
        ((levelKeys question).zip (question.levels.map constString))) value) ∧
      (∀ value, ("probabilities", value) ∈ members →
        Valid (probabilityObject (levelKeys question)) value) ∧
      ∀ value, ("confidence", value) ∈ members →
        ∃ n, value = .num n ∧ 0 ≤ n.value ∧ n.value ≤ 1 := by
  have hscore : ∀ {value : Document}, Valid (mapObject [("type", .str "number"),
      ("minimum", .num 0), ("maximum", .num (question.levels.length - 1))]) value ↔
      ∃ n, value = .num n ∧ 0 ≤ n.value ∧ n.value ≤ (question.levels.length : ℚ) - 1 := by
    intro value
    rw [valid_mapObject_iff, valid_number_iff]
    simp
  unfold answerSchemaFor
  rw [htype]
  dsimp only
  rw [valid_strictObject_iff (by simp)]
  refine exists_congr fun members => and_congr_right fun _ => and_congr_right fun _ => ?_
  simp only [follow_cons, follow_nil, and_true, valid_constString_iff, valid_unitNumber_iff, hscore]

variable {questions : StrMap Question} {schema : Json} {raw : Document}

theorem validateQuestions_of_schema (hschema : answerJSONSchema questions = .ok schema) :
    validateQuestions questions = .ok () := by
  unfold answerJSONSchema at hschema
  cases hquestions : validateQuestions questions with
  | error err => simp [hquestions] at hschema
  | ok _ => rfl

/-- What the whole schema asks for. -/
theorem valid_answerJSONSchema_iff (hschema : answerJSONSchema questions = .ok schema) :
    Valid schema raw ↔ ∃ members, raw = .obj members ∧
      (∀ name, name ∈ members.map Prod.fst ↔ name = "answers") ∧
      ∀ value, ("answers", value) ∈ members → ∃ answers, value = .obj answers ∧
        (∀ id, id ∈ answers.map Prod.fst ↔ id ∈ questions.keys) ∧
        ∀ e ∈ questions.entries, ∀ answer, (e.1, answer) ∈ answers →
          Valid (answerSchemaFor e.2) answer := by
  have hanswers : ∀ {value : Document}, Valid (strictObject questions.keys
      (questions.entries.map fun entry => (entry.1, answerSchemaFor entry.2))) value ↔
      ∃ answers, value = .obj answers ∧
        (∀ id, id ∈ answers.map Prod.fst ↔ id ∈ questions.keys) ∧
        ∀ e ∈ questions.entries, ∀ answer, (e.1, answer) ∈ answers →
          Valid (answerSchemaFor e.2) answer := by
    intro value
    rw [valid_strictObject_iff (by simp [StrMap.keys])]
    refine exists_congr fun answers => and_congr_right fun _ => and_congr_right fun _ => ?_
    constructor
    · intro h e he answer hanswer
      exact h e.1 _ answer (List.mem_map_of_mem he) hanswer
    · intro h name schema answer hmem hanswer
      obtain ⟨e, he, heq⟩ := List.mem_map.mp hmem
      obtain ⟨rfl, rfl⟩ := Prod.mk.inj heq
      exact h e he answer hanswer
  have hquestions := validateQuestions_of_schema hschema
  unfold answerJSONSchema at hschema
  rw [hquestions] at hschema
  obtain rfl := Except.ok.inj hschema
  have hroot : Valid (mapObject ([("type", .str "object"), ("additionalProperties", .bool false),
      ("required", .arr (["answers"].map .str)), ("properties", mapObject [("answers",
        strictObject questions.keys
          (questions.entries.map fun entry => (entry.1, answerSchemaFor entry.2)))])] ++
      [("$schema", .str "https://json-schema.org/draft/2020-12/schema"),
        ("title", .str "RuleRaven provider answers")])) raw ↔ _ :=
    valid_closed_mapObject_iff (by simp) (by decide)
  rw [valid_mapObject_iff] at hroot ⊢
  refine (valid_congr fun field => ?_).trans (hroot.trans (exists_congr fun members =>
    and_congr_right fun _ => ?_))
  · simp only [List.mem_append, List.mem_cons, List.not_mem_nil, or_false, List.map_cons,
      List.map_nil]
    tauto
  · simp only [follow_cons, follow_nil, and_true, hanswers, List.mem_singleton]

end Schemas

end RuleRaven.Provider
