import RuleRaven.Framework.Document

namespace RuleRaven.Framework

namespace Document

def members : Document → List (String × Document)
  | .obj members => members
  | _ => []

/-- The member with a name, `null` where there is none. -/
def member (d : Document) (name : String) : Document :=
  ((d.members.find? fun e => e.1 == name).map Prod.snd).getD .null

def number : Document → ℚ
  | .num n => n.value
  | _ => 0

def text : Document → String
  | .str s => s
  | _ => ""

theorem value_unique {members : List (String × Document)} {name : String} {v w : Document}
    (hnames : (members.map Prod.fst).Nodup) (hv : (name, v) ∈ members) (hw : (name, w) ∈ members) :
    v = w :=
  (Prod.mk.inj (List.inj_on_of_nodup_map hnames hv hw rfl)).2

/-- An object with one name. -/
theorem single_of_names {members : List (String × Document)} {name : String}
    (hnames : (members.map Prod.fst).Nodup) (hin : name ∈ members.map Prod.fst)
    (honly : ∀ e ∈ members, e.1 = name) : ∃ value, members = [(name, value)] := by
  cases members with
  | nil => cases hin
  | cons first rest =>
    have hfirst := honly first List.mem_cons_self
    cases rest with
    | nil => exact ⟨first.2, by rw [← hfirst]⟩
    | cons second rest =>
      have hsecond := honly second (List.mem_cons_of_mem _ List.mem_cons_self)
      rw [List.map_cons, List.map_cons, hfirst, hsecond] at hnames
      exact absurd List.mem_cons_self (List.nodup_cons.mp hnames).1

theorem member_of_mem {members : List (String × Document)} {name : String} {value : Document}
    (hnames : (members.map Prod.fst).Nodup) (h : (name, value) ∈ members) :
    (Document.obj members).member name = value := by
  have hsome : (members.find? fun e => e.1 == name).isSome = true :=
    List.find?_isSome.mpr ⟨_, h, beq_self_eq_true _⟩
  obtain ⟨e, he⟩ := Option.isSome_iff_exists.mp hsome
  have hname : e.1 = name := by simpa using List.find?_some he
  have heq : e = (name, value) :=
    List.inj_on_of_nodup_map hnames (List.mem_of_find?_eq_some he) h hname
  show ((members.find? fun e => e.1 == name).map Prod.snd).getD .null = value
  rw [he, heq]
  rfl

end Document

section Maps

variable {α : Type} {zero : α} {into : Into α} {members : List (String × Document)}

/-- One member of an object into a map. -/
def intoEntry (zero : α) (into : Into α) (entries : StrMap α) (member : String × Document) :
    Option (StrMap α) :=
  (into member.2 zero).map (entries.insert member.1)

/-- What a document is decoded to from zero, where that succeeds. -/
def decoded (zero : α) (into : Into α) (d : Document) : α := (into d zero).getD zero

theorem foldlM_intoEntry {old m : StrMap α} (hnames : (members.map Prod.fst).Nodup)
    (hfresh : ∀ e ∈ members, e.1 ∉ old.keys)
    (h : members.foldlM (intoEntry zero into) old = some m) :
    m.entries.Perm (old.entries ++ members.map fun e => (e.1, decoded zero into e.2)) ∧
      ∀ e ∈ members, into e.2 zero = some (decoded zero into e.2) := by
  induction members generalizing old with
  | nil =>
    cases h
    simp
  | cons member members ih =>
    obtain ⟨key, d⟩ := member
    rw [List.map_cons, List.nodup_cons] at hnames
    rw [List.foldlM_cons] at h
    cases hinto : into d zero with
    | none => simp [intoEntry, hinto] at h
    | some value =>
      have hdecoded : decoded zero into d = value := by rw [decoded, hinto]; rfl
      have hperm := StrMap.insert_perm (hfresh _ List.mem_cons_self) value
      have hrest : members.foldlM (intoEntry zero into) (old.insert key value) = some m := by
        simpa [intoEntry, hinto] using h
      have hnew : ∀ e ∈ members, e.1 ∉ (old.insert key value).keys := by
        intro e he hkey
        rcases List.mem_cons.mp ((hperm.map Prod.fst).mem_iff.mp hkey) with heq | hold
        · exact hnames.1 (heq ▸ List.mem_map_of_mem he)
        · exact hfresh e (List.mem_cons_of_mem _ he) hold
      obtain ⟨hentries, hvalues⟩ := ih hnames.2 hnew hrest
      refine ⟨?_, List.forall_mem_cons.mpr ⟨by rw [hdecoded]; exact hinto, hvalues⟩⟩
      rw [List.map_cons, hdecoded]
      exact (hentries.trans (hperm.append_right _)).trans List.perm_middle.symm

/-- The map has the members, each with the value that its document stands for. -/
def Reads (value : Document → α) (members : List (String × Document)) (m : StrMap α) : Prop :=
  m.entries.Perm (members.map fun e => (e.1, value e.2))

/-- An object whose names differ becomes the map of its members. -/
theorem intoMap_entries {m : StrMap α} (hnames : (members.map Prod.fst).Nodup)
    (h : intoMap zero into (.obj members) StrMap.empty = some m) :
    Reads (decoded zero into) members m ∧
      ∀ e ∈ members, into e.2 zero = some (decoded zero into e.2) :=
  foldlM_intoEntry hnames (fun _ _ hkey => by cases hkey) h

theorem intoMap_reads {m : StrMap α} {value : Document → α} (hnames : (members.map Prod.fst).Nodup)
    (h : intoMap zero into (.obj members) StrMap.empty = some m)
    (hvalue : ∀ e ∈ members, ∀ x, into e.2 zero = some x → x = value e.2) :
    Reads value members m := by
  obtain ⟨hperm, hdecoded⟩ := intoMap_entries hnames h
  refine hperm.trans (List.Perm.of_eq (List.map_congr_left fun e he => ?_))
  rw [hvalue e he _ (hdecoded e he)]

theorem obj_of_intoMap {d : Document} {old m : StrMap α} (h : intoMap zero into d old = some m)
    (hnull : d ≠ .null) : ∃ members, d = .obj members := by
  cases d with
  | null => exact absurd rfl hnull
  | obj members => exact ⟨members, rfl⟩
  | bool b | num n | str s | arr items => cases h

variable {m : StrMap α} {value : Document → α}

theorem Reads.keys (h : Reads value members m) : m.keys.Perm (members.map Prod.fst) := by
  have hkeys := h.map Prod.fst
  rwa [List.map_map] at hkeys

theorem Reads.lookup (h : Reads value members m) {e : String × Document} (he : e ∈ members) :
    m.lookup e.1 = some (value e.2) :=
  StrMap.lookup_of_mem (h.mem_iff.mpr (List.mem_map_of_mem he))

end Maps

section Structs

variable {σ α : Type} {fields : List (StructField σ)} {members : List (String × Document)}

/-- The field keeps what `get` reads. -/
def StructField.Leaves (f : StructField σ) (get : σ → α) : Prop :=
  ∀ d s s', f.into d s = some s' → get s' = get s

theorem leaves_of {β : Type} {name : String} {get' : σ → β} {set : σ → β → σ} {into : Into β}
    {get : σ → α} (h : ∀ s x, get (set s x) = get s) :
    (StructField.of name get' set into).Leaves get := by
  intro d s s' hinto
  obtain ⟨x, -, rfl⟩ := Option.map_eq_some_iff.mp hinto
  exact h s x

/-- One member of an object into a struct that refuses unknown names. -/
def intoField (fields : List (StructField σ)) (s : σ) (member : String × Document) : Option σ :=
  match findField fields member.1 with
  | some f => f.into member.2 s
  | none => none

theorem intoStruct_obj (s : σ) :
    intoStruct true fields (.obj members) s = members.foldlM (intoField fields) s := rfl

theorem findField_of_mem (hnames : (fields.map StructField.name).Nodup) {f : StructField σ}
    (hf : f ∈ fields) : findField fields f.name = some f := by
  have hsome : (fields.find? fun g => g.name == f.name).isSome = true :=
    List.find?_isSome.mpr ⟨f, hf, beq_self_eq_true _⟩
  obtain ⟨g, hg⟩ := Option.isSome_iff_exists.mp hsome
  have hname : g.name = f.name := by simpa using List.find?_some hg
  rw [findField, hg, List.inj_on_of_nodup_map hnames (List.mem_of_find?_eq_some hg) hf hname]

/-- The value of a field is decoded from the member with its name, if there is one. -/
def FieldOf (members : List (String × Document)) (name : String) (into : Into α)
    (zero value : α) : Prop :=
  (∀ d, (name, d) ∈ members → into d zero = some value) ∧
    (name ∉ members.map Prod.fst → value = zero)

/-- Members with different names, each that of a field, fill one field each. -/
theorem intoStruct_get {name : String} {get : σ → α} {set : σ → α → σ} {into : Into α}
    (hfields : (fields.map StructField.name).Nodup)
    (hmem : StructField.of name get set into ∈ fields) (hset : ∀ s x, get (set s x) = x)
    (hleaves : ∀ f ∈ fields, f.name ≠ name → f.Leaves get)
    (hexact : ∀ e ∈ members, e.1 ∈ fields.map StructField.name)
    (hnames : (members.map Prod.fst).Nodup) {s s' : σ}
    (h : intoStruct true fields (.obj members) s = some s') :
    FieldOf members name into (get s) (get s') := by
  rw [intoStruct_obj] at h
  induction members generalizing s with
  | nil =>
    cases h
    exact ⟨fun d hd => absurd hd List.not_mem_nil, fun _ => rfl⟩
  | cons member members ih =>
    obtain ⟨key, d⟩ := member
    rw [List.map_cons, List.nodup_cons] at hnames
    have hlater : ∀ e ∈ members, e.1 ∈ fields.map StructField.name :=
      fun e he => hexact e (List.mem_cons_of_mem _ he)
    obtain ⟨f, hf, rfl⟩ := List.mem_map.mp (hexact _ List.mem_cons_self)
    rw [List.foldlM_cons, intoField, findField_of_mem hfields hf] at h
    obtain ⟨t, ht, hrest⟩ := Option.bind_eq_some_iff.mp h
    obtain ⟨hdecoded, hkept⟩ := ih hlater hnames.2 hrest
    by_cases hname : f.name = name
    · -- this member fills the field, and no later one touches it
      have hf : f = StructField.of name get set into :=
        List.inj_on_of_nodup_map hfields hf hmem hname
      subst hf
      obtain ⟨x, hx, rfl⟩ := Option.map_eq_some_iff.mp ht
      have hvalue : get s' = x := by
        rw [hkept hnames.1, hset]
      refine ⟨fun d' hd' => ?_, fun hout => absurd List.mem_cons_self hout⟩
      rcases List.mem_cons.mp hd' with heq | hlater
      · cases heq
        rw [hvalue]
        exact hx
      · exact absurd (List.mem_map_of_mem hlater) hnames.1
    · have hsame : get t = get s := hleaves f hf hname d s t ht
      rw [hsame] at hdecoded hkept
      refine ⟨fun d' hd' => ?_, fun hout => hkept fun hin => hout (List.mem_cons_of_mem _ hin)⟩
      rcases List.mem_cons.mp hd' with heq | hlater
      · exact absurd (congrArg Prod.fst heq).symm hname
      · exact hdecoded d' hlater

end Structs

end RuleRaven.Framework
