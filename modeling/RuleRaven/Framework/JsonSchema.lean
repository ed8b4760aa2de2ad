import RuleRaven.Framework.Json
import RuleRaven.Framework.Document

namespace RuleRaven.Framework

/-- No object of the document repeats a name, as in a JSON value. -/
inductive Document.Distinct : Document → Prop
  | null : Distinct .null
  | bool (b : Bool) : Distinct (.bool b)
  | num (n : Numeral) : Distinct (.num n)
  | str (s : String) : Distinct (.str s)
  | arr {items : List Document} (h : ∀ d ∈ items, Distinct d) : Distinct (.arr items)
  | obj {members : List (String × Document)} (hnames : (members.map Prod.fst).Nodup)
      (h : ∀ e ∈ members, Distinct e.2) : Distinct (.obj members)

theorem Document.Distinct.members {members : List (String × Document)}
    (h : (Document.obj members).Distinct) :
    (members.map Prod.fst).Nodup ∧ ∀ e ∈ members, e.2.Distinct := by
  cases h with
  | obj hnames h => exact ⟨hnames, h⟩

namespace JsonSchema

/-- The name that the keyword `type` has for a document. -/
def typeOf : Document → String
  | .null => "null"
  | .bool _ => "boolean"
  | .num _ => "number"
  | .str _ => "string"
  | .arr _ => "array"
  | .obj _ => "object"

/-- The document is the scalar that a schema gives under `const` or in an `enum`. -/
def Is : Json → Document → Prop
  | .null, .null => True
  | .bool a, .bool b => a = b
  | .num a, .num b => b.value = a
  | .str a, .str b => a = b
  | _, _ => False

/-- The keywords without subschemas that restrict a document. -/
structure Assertions (fields : List (String × Json)) (d : Document) : Prop where
  type : ∀ name, ("type", .str name) ∈ fields → typeOf d = name
  const : ∀ value, ("const", value) ∈ fields → Is value d
  enum : ∀ values, ("enum", .arr values) ∈ fields → ∃ value ∈ values, Is value d
  minimum : ∀ (bound : Int) n, ("minimum", .num bound) ∈ fields → d = .num n → bound ≤ n.value
  maximum : ∀ (bound : Int) n, ("maximum", .num bound) ∈ fields → d = .num n → n.value ≤ bound
  required : ∀ names members, ("required", .arr names) ∈ fields → d = .obj members →
    ∀ name, .str name ∈ names → name ∈ members.map Prod.fst

/-- The schema that `properties` has for a name. -/
def Declares (fields : List (String × Json)) (name : String) (schema : Json) : Prop :=
  ∃ schemas, ("properties", .obj schemas) ∈ fields ∧ (name, schema) ∈ schemas

/-- What a schema allows. The keywords that are not listed here are annotations. -/
inductive Valid : Json → Document → Prop
  | anything (d : Document) : Valid (.bool true) d
  | keywords {fields : List (String × Json)} {d : Document} (assertions : Assertions fields d)
      (properties : ∀ members, d = .obj members → ∀ e ∈ members, ∀ schema,
        Declares fields e.1 schema → Valid schema e.2)
      (additionalProperties : ∀ schema, ("additionalProperties", schema) ∈ fields →
        ∀ members, d = .obj members → ∀ e ∈ members, (∀ property, ¬Declares fields e.1 property) →
          Valid schema e.2) : Valid (.obj fields) d

theorem not_valid_false (d : Document) : ¬Valid (.bool false) d := by
  intro h
  cases h

section Shapes

variable {fields : List (String × Json)} {d : Document}

/-- The order of the keywords does not matter. -/
theorem Valid.congr {fields' : List (String × Json)} (h : Valid (.obj fields) d)
    (hfields : ∀ field, field ∈ fields' ↔ field ∈ fields) : Valid (.obj fields') d := by
  have hdeclares : ∀ name schema, Declares fields' name schema ↔ Declares fields name schema := by
    intro name schema
    simp only [Declares, hfields]
  cases h with
  | keywords assertions properties additionalProperties =>
    refine .keywords ?_ ?_ ?_
    · constructor
      · exact fun name hname => assertions.type name ((hfields _).mp hname)
      · exact fun value hvalue => assertions.const value ((hfields _).mp hvalue)
      · exact fun values hvalues => assertions.enum values ((hfields _).mp hvalues)
      · exact fun bound n hbound => assertions.minimum bound n ((hfields _).mp hbound)
      · exact fun bound n hbound => assertions.maximum bound n ((hfields _).mp hbound)
      · exact fun names members hnames => assertions.required names members ((hfields _).mp hnames)
    · intro members hd e he schema hschema
      exact properties members hd e he schema ((hdeclares _ _).mp hschema)
    · intro schema hschema members hd e he hnone
      refine additionalProperties schema ((hfields _).mp hschema) members hd e he ?_
      exact fun property hproperty => hnone property ((hdeclares _ _).mpr hproperty)

theorem valid_congr {fields' : List (String × Json)}
    (h : ∀ field, field ∈ fields' ↔ field ∈ fields) :
    Valid (.obj fields') d ↔ Valid (.obj fields) d :=
  ⟨fun hvalid => hvalid.congr fun field => (h field).symm, fun hvalid => hvalid.congr h⟩

theorem valid_number_iff {low high : Int} :
    Valid (.obj [("type", .str "number"), ("minimum", .num low), ("maximum", .num high)]) d ↔
      ∃ n, d = .num n ∧ low ≤ n.value ∧ n.value ≤ high := by
  constructor
  · intro h
    cases h with
    | keywords assertions _ _ =>
      have htype := assertions.type "number" (by simp)
      cases d with
      | num n =>
        exact ⟨n, rfl, assertions.minimum low n (by simp) rfl,
          assertions.maximum high n (by simp) rfl⟩
      | null | bool b | str s | arr items | obj members => simp [typeOf] at htype
  · rintro ⟨n, rfl, hlow, hhigh⟩
    refine .keywords ⟨?_, ?_, ?_, ?_, ?_, ?_⟩ ?_ ?_ <;> simp_all [typeOf]

theorem valid_const_iff {text : String} :
    Valid (.obj [("type", .str "string"), ("const", .str text)]) d ↔ d = .str text := by
  constructor
  · intro h
    cases h with
    | keywords assertions _ _ =>
      have hconst := assertions.const (.str text) (by simp)
      cases d with
      | str s => rw [show text = s from hconst]
      | null | bool b | num n | arr items | obj members => exact hconst.elim
  · rintro rfl
    refine .keywords ⟨?_, ?_, ?_, ?_, ?_, ?_⟩ ?_ ?_ <;> simp_all [typeOf, Is]

theorem valid_enum_iff {choices : List String} :
    Valid (.obj [("type", .str "string"), ("enum", .arr (choices.map .str))]) d ↔
      ∃ choice ∈ choices, d = .str choice := by
  constructor
  · intro h
    cases h with
    | keywords assertions _ _ =>
      obtain ⟨value, hvalue, his⟩ := assertions.enum _ (List.mem_cons_of_mem _ List.mem_cons_self)
      obtain ⟨choice, hchoice, rfl⟩ := List.mem_map.mp hvalue
      cases d with
      | str s => exact ⟨choice, hchoice, by rw [show choice = s from his]⟩
      | null | bool b | num n | arr items | obj members => exact his.elim
  · rintro ⟨choice, hchoice, rfl⟩
    refine .keywords ⟨?_, ?_, ?_, ?_, ?_, ?_⟩ ?_ ?_ <;> simp_all [typeOf, Is]

/-- The keywords that restrict documents. -/
def restricting : List String :=
  ["type", "const", "enum", "minimum", "maximum", "required", "properties", "additionalProperties"]

/-- An object that has the properties it must have, and none that is not declared. -/
def closed (required : List String) (schemas : List (String × Json)) : List (String × Json) :=
  [("type", .str "object"), ("additionalProperties", .bool false),
    ("required", .arr (required.map .str)), ("properties", .obj schemas)]

section Closed

variable {required : List String} {schemas annotations : List (String × Json)}
  (hannotations : ∀ e ∈ annotations, e.1 ∉ restricting)

include hannotations

theorem mem_closed_iff {keyword : String} (hkeyword : keyword ∈ restricting) {value : Json} :
    (keyword, value) ∈ closed required schemas ++ annotations ↔
      (keyword, value) ∈ closed required schemas := by
  rw [List.mem_append, or_iff_left]
  exact fun hmem => hannotations _ hmem hkeyword

theorem declares_closed_iff {name : String} {schema : Json} :
    Declares (closed required schemas ++ annotations) name schema ↔ (name, schema) ∈ schemas := by
  constructor
  · rintro ⟨found, hfound, hschema⟩
    rw [mem_closed_iff hannotations (by decide)] at hfound
    simp [closed] at hfound
    rwa [← hfound]
  · intro hschema
    exact ⟨schemas, (mem_closed_iff hannotations (by decide)).mpr (by simp [closed]), hschema⟩

theorem valid_closed_iff :
    Valid (.obj (closed required schemas ++ annotations)) d ↔
      ∃ members, d = .obj members ∧ (∀ name ∈ required, name ∈ members.map Prod.fst) ∧
        (∀ e ∈ members, ∃ schema, (e.1, schema) ∈ schemas) ∧
        ∀ e ∈ members, ∀ schema, (e.1, schema) ∈ schemas → Valid schema e.2 := by
  constructor
  · intro h
    cases h with
    | keywords assertions properties additionalProperties =>
      have htype := assertions.type "object" (by simp [closed])
      cases d with
      | obj members =>
        refine ⟨members, rfl, ?_, ?_, ?_⟩
        · intro name hname
          exact assertions.required (required.map .str) members (by simp [closed]) rfl name
            (List.mem_map_of_mem hname)
        · intro e he
          by_contra hnone
          refine not_valid_false e.2 (additionalProperties _ (by simp [closed]) members rfl e he ?_)
          intro property hproperty
          exact hnone ⟨property, (declares_closed_iff hannotations).mp hproperty⟩
        · intro e he schema hschema
          exact properties members rfl e he schema ((declares_closed_iff hannotations).mpr hschema)
      | null | bool b | num n | str s | arr items => simp [typeOf] at htype
  · rintro ⟨members, rfl, hrequired, hclosed, hvalid⟩
    refine .keywords ⟨?_, ?_, ?_, ?_, ?_, ?_⟩ ?_ ?_
    · intro name hname
      rw [mem_closed_iff hannotations (by decide)] at hname
      simp [closed] at hname
      simp [hname, typeOf]
    · intro value hvalue
      rw [mem_closed_iff hannotations (by decide)] at hvalue
      simp [closed] at hvalue
    · intro values hvalues
      rw [mem_closed_iff hannotations (by decide)] at hvalues
      simp [closed] at hvalues
    · intro bound n _ hd
      cases hd
    · intro bound n _ hd
      cases hd
    · intro names others hnames hd name hname
      rw [mem_closed_iff hannotations (by decide)] at hnames
      simp [closed] at hnames
      cases hd
      rw [hnames] at hname
      obtain ⟨text, htext, heq⟩ := List.mem_map.mp hname
      rw [← Json.str.inj heq]
      exact hrequired text htext
    · intro others hd e he schema hschema
      cases hd
      exact hvalid e he schema ((declares_closed_iff hannotations).mp hschema)
    · intro schema hschema others hd e he hnone
      cases hd
      obtain ⟨property, hproperty⟩ := hclosed e he
      exact absurd ((declares_closed_iff hannotations).mpr hproperty) (hnone property)

end Closed

end Shapes

end JsonSchema

end RuleRaven.Framework
