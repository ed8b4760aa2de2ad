import RuleRaven.Provider.Decoding
import RuleRaven.Provider.Shapes

namespace RuleRaven.Provider

open Framework JsonSchema

section Objects

variable {d : Document}

/-- A number, if the document is one, that is between 0 and a bound as it is written. -/
def Within (top : ℚ) (d : Document) : Prop := ∀ n, d = .num n → 0 ≤ n.value ∧ n.value ≤ top

/-- A distribution that is accepted is one that the schema allows, if it has no `null` and its
numbers are written within their bounds. -/
theorem distribution_conforms {leeway : Leeway} {keys : List String} {m : StrMap Float64}
    (hdistinct : d.Distinct)
    (hdecoded : intoMap (.finite 0) intoFloat64 d StrMap.empty = some m) (hnull : d ≠ .null)
    (hfilled : ∀ e ∈ d.members, e.2 ≠ .null) (hwithin : ∀ e ∈ d.members, Within 1 e.2)
    (haccepted : validateDistribution leeway keys m = .ok ()) :
    Valid (probabilityObject keys) d := by
  obtain ⟨members, rfl⟩ := obj_of_intoMap hdecoded hnull
  obtain ⟨hnodup, -⟩ := hdistinct.members
  have hreads := numbers_decoded hnodup hdecoded hfilled
  obtain ⟨hsize, hentries, -⟩ := validateDistribution_ok_iff.mp haccepted
  have hsubset : m.keys ⊆ keys := by
    intro key hkey
    obtain ⟨e, he, rfl⟩ := List.mem_map.mp hkey
    exact (hentries e he).1
  have hall : m.keys.Perm keys := by
    apply (List.subperm_of_subset m.keys_nodup hsubset).perm_of_length_le
    rw [StrMap.keys, List.length_map]
    exact hsize.ge
  refine valid_probabilityObject_iff.mpr ⟨members, rfl, fun name => ?_, fun e he => ?_⟩
  · exact hreads.keys.mem_iff.symm.trans hall.mem_iff
  · obtain ⟨n, hn, -⟩ :=
      num_of_intoFloat64 ((intoMap_entries hnodup hdecoded).2 e he) (hfilled e he)
    exact ⟨n, hn, hwithin e he n hn⟩

/-- A legend that is accepted is one that the schema allows, if it has no `null`. -/
theorem legend_conforms {question : Question} {m : StrMap String} (hdistinct : d.Distinct)
    (hdecoded : intoMap "" intoString d StrMap.empty = some m) (hnull : d ≠ .null)
    (hfilled : ∀ e ∈ d.members, e.2 ≠ .null) (hsize : m.size = question.levels.length)
    (haccepted : validateLegend m 0 [] question.levels = .ok ()) :
    Valid (strictObject (levelKeys question)
      ((levelKeys question).zip (question.levels.map constString))) d := by
  obtain ⟨members, rfl⟩ := obj_of_intoMap hdecoded hnull
  obtain ⟨hnodup, -⟩ := hdistinct.members
  have hreads := texts_decoded hnodup hdecoded hfilled
  have hlookup : ∀ k (hk : k < question.levels.length),
      m.lookup (Nat.repr k) = some question.levels[k] := by
    intro k hk
    have hlevel := (validateLegend_ok_iff.mp haccepted).1 k hk
    rwa [Nat.zero_add] at hlevel
  refine valid_legend_iff.mpr ⟨members, rfl, fun name => ?_, fun k hk value hvalue => ?_⟩
  · rw [← hreads.keys.mem_iff, mem_levelKeys]
    constructor
    · intro hname
      obtain ⟨e, he, rfl⟩ := List.mem_map.mp hname
      obtain ⟨k, hk, rfl⟩ := legend_entries hsize hlookup e he
      exact ⟨k, hk, rfl⟩
    · rintro ⟨k, hk, rfl⟩
      exact List.mem_map_of_mem (StrMap.mem_of_lookup (hlookup k hk))
  · have htext : value = .str (decoded "" intoString value) :=
      str_of_intoString ((intoMap_entries hnodup hdecoded).2 _ hvalue) (hfilled _ hvalue)
    have hlevel : some value.text = some question.levels[k] :=
      (hreads.lookup hvalue).symm.trans (hlookup k hk)
    rw [htext] at hlevel ⊢
    rw [Option.some.inj hlevel.symm]
    rfl

end Objects

section Conforming

variable {members : List (String × Document)} {a : Answer} {leeway : Leeway} {question : Question}

theorem text_ofText (text : String) : (QuestionType.ofText text).text = text := by
  unfold QuestionType.ofText
  split_ifs with hnoul hchoice hscore
  · exact hnoul.symm
  · exact hchoice.symm
  · exact hscore.symm
  · rfl

/-- A document that is not read as if it were absent, and none of whose entries is. -/
def Filled (d : Document) : Prop :=
  d ≠ .null ∧ d ≠ .str "" ∧ d ≠ .obj [] ∧ ∀ e ∈ d.members, e.2 ≠ .null

theorem filled_num (n : Numeral) : Filled (.num n) :=
  ⟨Document.noConfusion, Document.noConfusion, Document.noConfusion, List.forall_mem_nil _⟩

theorem filled_str {text : String} (h : text ≠ "") : Filled (.str text) :=
  ⟨Document.noConfusion, fun heq => h (Document.str.inj heq), Document.noConfusion,
    List.forall_mem_nil _⟩

theorem filled_obj {entries : List (String × Document)} (hsome : entries ≠ [])
    (h : ∀ e ∈ entries, e.2 ≠ .null) : Filled (.obj entries) :=
  ⟨Document.noConfusion, Document.noConfusion, fun heq => hsome (Document.obj.inj heq), h⟩

/-- An answer that has its names as they are declared, and nothing empty. -/
def SpelledAnswer (answer : Document) : Prop :=
  ∀ e ∈ answer.members, e.1 ∈ answerFields.map StructField.name ∧ Filled e.2

/-- Every number of the answer to a question is written within its bounds. -/
structure RangedAnswer (question : Question) (answer : Document) : Prop where
  unit : ∀ e ∈ answer.members, e.1 = "noul" ∨ e.1 = "confidence" → Within 1 e.2
  score : ∀ e ∈ answer.members, e.1 = "score" →
    Within ((question.levels.length : ℚ) - 1) e.2
  probabilities : ∀ e ∈ answer.members, e.1 = "probabilities" →
    ∀ p ∈ e.2.members, Within 1 p.2

theorem pointer_absent {name : String}
    (h : FieldOf members name (intoPointer (.finite 0) intoFloat64) none none)
    (hfilled : ∀ e ∈ members, Filled e.2) : name ∉ members.map Prod.fst := by
  intro hin
  obtain ⟨d, hmem⟩ := exists_member hin
  obtain ⟨n, -, hvalue⟩ := num_of_intoPointer (h.1 d hmem) (hfilled _ hmem).1
  cases hvalue

theorem map_absent {α : Type} {name : String} {zero : α} {into : Into α} {m : StrMap α}
    (h : FieldOf members name (intoMap zero into) StrMap.empty m) (hsize : m.size = 0)
    (hdistinct : (Document.obj members).Distinct) (hfilled : ∀ e ∈ members, Filled e.2) :
    name ∉ members.map Prod.fst := by
  intro hin
  obtain ⟨d, hmem⟩ := exists_member hin
  obtain ⟨entries, rfl⟩ := obj_of_intoMap (h.1 d hmem) (hfilled _ hmem).1
  obtain ⟨hnodup, -⟩ := (hdistinct.members.2 _ hmem).members
  have hlength := (intoMap_entries hnodup (h.1 _ hmem)).1.length_eq
  rw [List.length_map] at hlength
  have hempty : entries = [] := List.length_eq_zero_iff.mp (hlength.symm.trans hsize)
  exact (hfilled _ hmem).2.2.1 (congrArg Document.obj hempty)

theorem choice_absent (h : FieldOf members "choice" intoString "" "")
    (hfilled : ∀ e ∈ members, Filled e.2) : "choice" ∉ members.map Prod.fst := by
  intro hin
  obtain ⟨d, hmem⟩ := exists_member hin
  exact (hfilled _ hmem).2.1 (str_of_intoString (h.1 d hmem) (hfilled _ hmem).1)

theorem unit_member {name : String} {value : Option Float64}
    (h : FieldOf members name (intoPointer (.finite 0) intoFloat64) none value)
    (hunit : ∃ v, value = some v ∧ v.InUnit) (hfilled : ∀ e ∈ members, Filled e.2)
    (hwithin : ∀ d, (name, d) ∈ members → Within 1 d) :
    name ∈ members.map Prod.fst ∧
      ∀ d, (name, d) ∈ members → ∃ n, d = .num n ∧ 0 ≤ n.value ∧ n.value ≤ 1 := by
  obtain ⟨v, rfl, -⟩ := hunit
  constructor
  · by_contra hout
    cases h.2 hout
  · intro d hmem
    obtain ⟨n, rfl, -⟩ := num_of_intoPointer (h.1 d hmem) (hfilled _ hmem).1
    exact ⟨n, rfl, hwithin _ hmem n rfl⟩

theorem AnswerOf.type_member (h : AnswerOf members a) (hfilled : ∀ e ∈ members, Filled e.2)
    (hknown : ∀ text, a.type ≠ .unknown text) :
    "type" ∈ members.map Prod.fst ∧ ∀ d, ("type", d) ∈ members → d = .str a.type.text := by
  constructor
  · by_contra hout
    exact hknown _ (h.type.2 hout)
  · intro d hmem
    obtain ⟨text, htext, htype⟩ := Option.map_eq_some_iff.mp (h.type.1 d hmem)
    rw [← htype, text_ofText]
    exact str_of_intoString htext (hfilled _ hmem).1

/-- The names of the members, once each field is known to have a member or none. -/
theorem names_iff {names : List String} (hspelled : SpelledAnswer (.obj members))
    (hin : ∀ name ∈ names, name ∈ members.map Prod.fst)
    (hout : ∀ name, name ∈ answerFields.map StructField.name → name ∈ names ∨
      name ∉ members.map Prod.fst) (name : String) :
    name ∈ members.map Prod.fst ↔ name ∈ names := by
  refine ⟨fun hmem => ?_, hin name⟩
  obtain ⟨e, he, rfl⟩ := List.mem_map.mp hmem
  rcases hout e.1 (hspelled e he).1 with hname | habsent
  · exact hname
  · exact absurd hmem habsent

theorem mem_answerFields {name : String} (h : name ∈ answerFields.map StructField.name) :
    name = "type" ∨ name = "noul" ∨ name = "choice" ∨ name = "score" ∨ name = "legend" ∨
      name = "probabilities" ∨ name = "confidence" := by
  simpa [answerFields, StructField.of] using h

theorem noul_conforms (htype : question.type = .noul) (hdistinct : (Document.obj members).Distinct)
    (hspelled : SpelledAnswer (.obj members)) (hranged : RangedAnswer question (.obj members))
    (hfields : AnswerOf members a) (hanswers : Answers leeway question a) :
    Valid (answerSchemaFor question) (.obj members) := by
  have hfilled : ∀ e ∈ members, Filled e.2 := fun e he => (hspelled e he).2
  obtain ⟨hunit, hchoice, hscore, hlegend, hprobabilities, hconfidence⟩ :=
    validateNoulAnswer_ok_iff.mp (hanswers.noul htype)
  have hkind : a.type = .noul := hanswers.type.trans htype
  obtain ⟨htypeIn, htext⟩ := hfields.type_member hfilled (by simp [hkind])
  obtain ⟨hnoulIn, hnoul⟩ := unit_member hfields.noul hunit hfilled fun d hmem =>
    hranged.unit _ hmem (Or.inl rfl)
  rw [hkind] at htext
  refine (valid_noul_iff htype).mpr ⟨members, rfl, names_iff hspelled ?_ ?_, htext, hnoul⟩
  · simp only [List.forall_mem_cons]
    exact ⟨htypeIn, hnoulIn, List.forall_mem_nil _⟩
  · intro name hname
    rcases mem_answerFields hname with rfl | rfl | rfl | rfl | rfl | rfl | rfl
    · exact Or.inl (by decide)
    · exact Or.inl (by decide)
    · exact Or.inr (choice_absent (hchoice ▸ hfields.choice) hfilled)
    · exact Or.inr (pointer_absent (hscore ▸ hfields.score) hfilled)
    · exact Or.inr (map_absent hfields.legend hlegend hdistinct hfilled)
    · exact Or.inr (map_absent hfields.probabilities hprobabilities hdistinct hfilled)
    · exact Or.inr (pointer_absent (hconfidence ▸ hfields.confidence) hfilled)

/-- A distribution that is accepted, as a member. -/
theorem distribution_member {keys : List String} (hsome : keys ≠ [])
    (hdistinct : (Document.obj members).Distinct) (hfilled : ∀ e ∈ members, Filled e.2)
    (hranged : RangedAnswer question (.obj members)) (hfields : AnswerOf members a)
    (haccepted : validateDistribution leeway keys a.probabilities = .ok ()) :
    "probabilities" ∈ members.map Prod.fst ∧
      ∀ d, ("probabilities", d) ∈ members → Valid (probabilityObject keys) d := by
  constructor
  · by_contra hout
    have hsize := (validateDistribution_ok_iff.mp haccepted).1
    rw [hfields.probabilities.2 hout] at hsize
    exact hsome (List.length_eq_zero_iff.mp hsize.symm)
  · intro d hmem
    obtain ⟨hnull, -, -, hentries⟩ := hfilled _ hmem
    exact distribution_conforms (hdistinct.members.2 _ hmem)
      (hfields.probabilities.1 d hmem) hnull hentries (hranged.probabilities _ hmem rfl) haccepted

theorem choice_conforms {id : String} (hquestion : validateQuestion id question = .ok ())
    (htype : question.type = .choice) (hdistinct : (Document.obj members).Distinct)
    (hspelled : SpelledAnswer (.obj members)) (hranged : RangedAnswer question (.obj members))
    (hfields : AnswerOf members a) (hanswers : Answers leeway question a) :
    Valid (answerSchemaFor question) (.obj members) := by
  have hfilled : ∀ e ∈ members, Filled e.2 := fun e he => (hspelled e he).2
  obtain ⟨hcount, hblank⟩ := criteria_of_choice hquestion htype
  obtain ⟨hnoul, hscore, hlegend, hchoice, hunit, haccepted, -⟩ :=
    validateChoiceAnswer_ok_iff.mp (hanswers.choice htype)
  have hselected := StrMap.mem_keys_of_contains hchoice
  have hkeys : question.criteria.keys ≠ [] := List.ne_nil_of_mem hselected
  have hkind : a.type = .choice := hanswers.type.trans htype
  obtain ⟨htypeIn, htext⟩ := hfields.type_member hfilled (by simp [hkind])
  obtain ⟨hprobabilitiesIn, hprobabilities⟩ :=
    distribution_member hkeys hdistinct hfilled hranged hfields haccepted
  obtain ⟨hconfidenceIn, hconfidence⟩ := unit_member hfields.confidence hunit hfilled
    fun d hmem => hranged.unit _ hmem (Or.inr rfl)
  have hchoiceIn : "choice" ∈ members.map Prod.fst := by
    by_contra hout
    exact hblank (hfields.choice.2 hout ▸ hselected)
  rw [hkind] at htext
  refine (valid_choice_iff htype).mpr ⟨members, rfl, names_iff hspelled ?_ ?_, htext,
    fun d hmem => ?_, hprobabilities, hconfidence⟩
  · simp only [List.forall_mem_cons]
    exact ⟨htypeIn, hchoiceIn, hprobabilitiesIn, hconfidenceIn, List.forall_mem_nil _⟩
  · intro name hname
    rcases mem_answerFields hname with rfl | rfl | rfl | rfl | rfl | rfl | rfl
    · exact Or.inl (by decide)
    · exact Or.inr (pointer_absent (hnoul ▸ hfields.noul) hfilled)
    · exact Or.inl (by decide)
    · exact Or.inr (pointer_absent (hscore ▸ hfields.score) hfilled)
    · exact Or.inr (map_absent hfields.legend hlegend hdistinct hfilled)
    · exact Or.inl (by decide)
    · exact Or.inl (by decide)
  · exact ⟨a.choice, hselected, str_of_intoString (hfields.choice.1 d hmem) (hfilled _ hmem).1⟩

theorem score_conforms {id : String} (hquestion : validateQuestion id question = .ok ())
    (htype : question.type = .score) (hdistinct : (Document.obj members).Distinct)
    (hspelled : SpelledAnswer (.obj members)) (hranged : RangedAnswer question (.obj members))
    (hfields : AnswerOf members a) (hanswers : Answers leeway question a) :
    Valid (answerSchemaFor question) (.obj members) := by
  have hfilled : ∀ e ∈ members, Filled e.2 := fun e he => (hspelled e he).2
  obtain ⟨hcount, -⟩ := levels_of_score hquestion htype
  obtain ⟨hnoul, hchoice, ⟨score, hscore, -⟩, hunit, hsize, hlegend, haccepted⟩ :=
    validateScoreAnswer_ok_iff.mp (hanswers.score htype)
  have hkeys : levelKeys question ≠ [] :=
    List.ne_nil_of_mem (mem_levelKeys.mpr ⟨0, by omega, rfl⟩)
  have hkind : a.type = .score := hanswers.type.trans htype
  obtain ⟨htypeIn, htext⟩ := hfields.type_member hfilled (by simp [hkind])
  obtain ⟨hprobabilitiesIn, hprobabilities⟩ :=
    distribution_member hkeys hdistinct hfilled hranged hfields haccepted
  obtain ⟨hconfidenceIn, hconfidence⟩ := unit_member hfields.confidence hunit hfilled
    fun d hmem => hranged.unit _ hmem (Or.inr rfl)
  have hscoreIn : "score" ∈ members.map Prod.fst := by
    by_contra hout
    cases hscore.symm.trans (hfields.score.2 hout)
  have hlegendIn : "legend" ∈ members.map Prod.fst := by
    by_contra hout
    rw [hfields.legend.2 hout] at hsize
    have hzero : (StrMap.empty : StrMap String).size = 0 := rfl
    omega
  rw [hkind] at htext
  refine (valid_score_iff htype).mpr ⟨members, rfl, names_iff hspelled ?_ ?_, htext,
    fun d hmem => ?_, fun d hmem => ?_, hprobabilities, hconfidence⟩
  · simp only [List.forall_mem_cons]
    exact ⟨htypeIn, hscoreIn, hlegendIn, hprobabilitiesIn, hconfidenceIn, List.forall_mem_nil _⟩
  · intro name hname
    rcases mem_answerFields hname with rfl | rfl | rfl | rfl | rfl | rfl | rfl
    · exact Or.inl (by decide)
    · exact Or.inr (pointer_absent (hnoul ▸ hfields.noul) hfilled)
    · exact Or.inr (choice_absent (hchoice ▸ hfields.choice) hfilled)
    · exact Or.inl (by decide)
    · exact Or.inl (by decide)
    · exact Or.inl (by decide)
    · exact Or.inl (by decide)
  · obtain ⟨n, rfl, -⟩ := num_of_intoPointer (hfields.score.1 d hmem) (hfilled _ hmem).1
    exact ⟨n, rfl, hranged.score _ hmem rfl n rfl⟩
  · obtain ⟨hnull, -, -, hentries⟩ := hfilled _ hmem
    exact legend_conforms (hdistinct.members.2 _ hmem) (hfields.legend.1 d hmem) hnull hentries
      hsize hlegend

/-- An answer that is accepted, has nothing empty and its numbers within their bounds is one that
the schema allows. -/
theorem answer_conforms {id : String} {d : Document}
    (hquestion : validateQuestion id question = .ok ()) (hdistinct : d.Distinct)
    (hspelled : SpelledAnswer d) (hranged : RangedAnswer question d)
    (hdecoded : intoStruct true answerFields d zeroAnswer = some a)
    (hanswers : Answers leeway question a) : Valid (answerSchemaFor question) d := by
  cases d with
  | null =>
    have hzero : zeroAnswer = a := Option.some.inj hdecoded
    exact absurd (hanswers.type.symm.trans (congrArg Answer.type hzero.symm))
      (type_of_validateQuestion hquestion "")
  | bool b | num n | str s | arr items => cases hdecoded
  | obj members =>
    have hfields := answerOf_decoded (fun e he => (hspelled e he).1) hdistinct.members.1 hdecoded
    cases htype : question.type with
    | noul => exact noul_conforms htype hdistinct hspelled hranged hfields hanswers
    | choice => exact choice_conforms hquestion htype hdistinct hspelled hranged hfields hanswers
    | score => exact score_conforms hquestion htype hdistinct hspelled hranged hfields hanswers
    | unknown text => exact absurd htype (type_of_validateQuestion hquestion text)

theorem filled_unit {d : Document} (h : ∃ n, d = .num n ∧ 0 ≤ n.value ∧ n.value ≤ 1) :
    Filled d := by
  obtain ⟨n, rfl, -⟩ := h
  exact filled_num n

theorem filled_distribution {keys : List String} {d : Document} (hkeys : keys ≠ [])
    (h : Valid (probabilityObject keys) d) : Filled d := by
  obtain ⟨entries, rfl, hnames, hunit⟩ := valid_probabilityObject_iff.mp h
  obtain ⟨key, hkey⟩ := List.exists_mem_of_ne_nil _ hkeys
  obtain ⟨value, hvalue⟩ := exists_member ((hnames key).mpr hkey)
  exact filled_obj (List.ne_nil_of_mem hvalue) fun e he => (filled_unit (hunit e he)).1

theorem filled_legend {d : Document} (hlevels : 2 ≤ question.levels.length)
    (h : Valid (strictObject (levelKeys question)
      ((levelKeys question).zip (question.levels.map constString))) d) : Filled d := by
  obtain ⟨entries, rfl, hnames, htexts⟩ := valid_legend_iff.mp h
  obtain ⟨value, hvalue⟩ :=
    exists_member ((hnames _).mpr (mem_levelKeys.mpr ⟨0, by omega, rfl⟩))
  refine filled_obj (List.ne_nil_of_mem hvalue) fun e he => ?_
  obtain ⟨k, hk, hkey⟩ := mem_levelKeys.mp ((hnames e.1).mp (List.mem_map_of_mem he))
  rw [htexts k hk e.2 (hkey ▸ he)]
  exact Document.noConfusion

/-- What the schema allows is spelled as declared. -/
theorem spelled_of_valid {id : String} {d : Document}
    (hquestion : validateQuestion id question = .ok ()) (h : Valid (answerSchemaFor question) d) :
    SpelledAnswer d := by
  have hstr : ∀ {value : Document} {text : String}, value = .str text → text ≠ "" → Filled value :=
    fun heq htext => heq ▸ filled_str htext
  cases htype : question.type with
  | noul =>
    obtain ⟨members, rfl, hnames, htext, hnoul⟩ := (valid_noul_iff htype).mp h
    rintro ⟨name, value⟩ he
    have hname := (hnames name).mp (List.mem_map_of_mem he)
    refine ⟨(by decide : ["type", "noul"] ⊆ answerFields.map StructField.name) hname, ?_⟩
    simp only [List.mem_cons, List.not_mem_nil, or_false] at hname
    rcases hname with rfl | rfl
    · exact hstr (htext value he) (by decide)
    · exact filled_unit (hnoul value he)
  | choice =>
    obtain ⟨members, rfl, hnames, htext, hchoice, hprobabilities, hconfidence⟩ :=
      (valid_choice_iff htype).mp h
    obtain ⟨hcount, hblank⟩ := criteria_of_choice hquestion htype
    rintro ⟨name, value⟩ he
    have hname := (hnames name).mp (List.mem_map_of_mem he)
    refine ⟨(by decide : ["type", "choice", "probabilities", "confidence"] ⊆
      answerFields.map StructField.name) hname, ?_⟩
    simp only [List.mem_cons, List.not_mem_nil, or_false] at hname
    rcases hname with rfl | rfl | rfl | rfl
    · exact hstr (htext value he) (by decide)
    · obtain ⟨selected, hselected, heq⟩ := hchoice value he
      exact hstr heq fun hempty => hblank (hempty ▸ hselected)
    · refine filled_distribution (fun hnil => ?_) (hprobabilities value he)
      have hlength := congrArg List.length hnil
      rw [StrMap.keys, List.length_map] at hlength
      have hsize : question.criteria.size = 0 := hlength
      omega
    · exact filled_unit (hconfidence value he)
  | score =>
    obtain ⟨members, rfl, hnames, htext, hscore, hlegend, hprobabilities, hconfidence⟩ :=
      (valid_score_iff htype).mp h
    obtain ⟨hcount, -⟩ := levels_of_score hquestion htype
    rintro ⟨name, value⟩ he
    have hname := (hnames name).mp (List.mem_map_of_mem he)
    refine ⟨(by decide : ["type", "score", "legend", "probabilities", "confidence"] ⊆
      answerFields.map StructField.name) hname, ?_⟩
    simp only [List.mem_cons, List.not_mem_nil, or_false] at hname
    rcases hname with rfl | rfl | rfl | rfl | rfl
    · exact hstr (htext value he) (by decide)
    · obtain ⟨n, rfl, -⟩ := hscore value he
      exact filled_num n
    · exact filled_legend hcount (hlegend value he)
    · exact filled_distribution (List.ne_nil_of_mem (mem_levelKeys.mpr ⟨0, by omega, rfl⟩))
        (hprobabilities value he)
    · exact filled_unit (hconfidence value he)
  | unknown text => exact absurd htype (type_of_validateQuestion hquestion text)

theorem within_unit {d : Document} (h : ∃ n, d = .num n ∧ 0 ≤ n.value ∧ n.value ≤ 1) :
    Within 1 d := by
  obtain ⟨n, rfl, hunit⟩ := h
  intro m hm
  cases hm
  exact hunit

theorem within_distribution {keys : List String} {d : Document}
    (h : Valid (probabilityObject keys) d) : ∀ p ∈ d.members, Within 1 p.2 := by
  obtain ⟨entries, rfl, -, hunit⟩ := valid_probabilityObject_iff.mp h
  exact fun p hp => within_unit (hunit p hp)

/-- Where a name is not among those that are there, nothing has to be said of its members. -/
theorem no_member {members : List (String × Document)} {names : List String}
    (hnames : ∀ name, name ∈ members.map Prod.fst ↔ name ∈ names) {name : String}
    (hout : name ∉ names) {P : String × Document → Prop} : ∀ e ∈ members, e.1 = name → P e := by
  rintro e he rfl
  exact absurd ((hnames e.1).mp (List.mem_map_of_mem he)) hout

/-- What the schema allows is written within its bounds. -/
theorem ranged_of_valid {id : String} {d : Document}
    (hquestion : validateQuestion id question = .ok ()) (h : Valid (answerSchemaFor question) d) :
    RangedAnswer question d := by
  cases htype : question.type with
  | noul =>
    obtain ⟨members, rfl, hnames, -, hnoul⟩ := (valid_noul_iff htype).mp h
    refine ⟨?_, no_member hnames (by decide), no_member hnames (by decide)⟩
    rintro ⟨_, value⟩ he (rfl | hname)
    · exact within_unit (hnoul value he)
    · exact no_member (P := fun e => Within 1 e.2) hnames (by decide) _ he hname
  | choice =>
    obtain ⟨members, rfl, hnames, -, -, hprobabilities, hconfidence⟩ :=
      (valid_choice_iff htype).mp h
    refine ⟨?_, no_member hnames (by decide), ?_⟩
    · rintro ⟨_, value⟩ he (hname | rfl)
      · exact no_member (P := fun e => Within 1 e.2) hnames (by decide) _ he hname
      · exact within_unit (hconfidence value he)
    · rintro ⟨_, value⟩ he rfl
      exact within_distribution (hprobabilities value he)
  | score =>
    obtain ⟨members, rfl, hnames, -, hscore, -, hprobabilities, hconfidence⟩ :=
      (valid_score_iff htype).mp h
    refine ⟨?_, ?_, ?_⟩
    · rintro ⟨_, value⟩ he (hname | rfl)
      · exact no_member (P := fun e => Within 1 e.2) hnames (by decide) _ he hname
      · exact within_unit (hconfidence value he)
    · rintro ⟨_, value⟩ he rfl
      obtain ⟨n, rfl, hrange⟩ := hscore value he
      intro m hm
      cases hm
      exact hrange
    · rintro ⟨_, value⟩ he rfl
      exact within_distribution (hprobabilities value he)
  | unknown text => exact absurd htype (type_of_validateQuestion hquestion text)

end Conforming

section Documents

variable {questions : StrMap Question} {schema : Json} {raw : Document}

/-- A document whose names are as declared throughout, and that has nothing empty. -/
def Spelled (raw : Document) : Prop :=
  (∀ e ∈ raw.members, e.1 = "answers") ∧ ∀ e ∈ (raw.member "answers").members, SpelledAnswer e.2

/-- A document all of whose numbers are written within the bounds that their questions set. -/
def Ranged (questions : StrMap Question) (raw : Document) : Prop :=
  ∀ e ∈ questions.entries, RangedAnswer e.2 ((raw.member "answers").member e.1)

theorem spelled_of_schema (hschema : answerJSONSchema questions = .ok schema)
    (hdistinct : raw.Distinct) (hvalid : Valid schema raw) :
    Spelled raw ∧ Ranged questions raw := by
  have hquestions := (validateQuestions_ok_iff.mp (validateQuestions_of_schema hschema)).2
  obtain ⟨members, rfl, hnames, hvalues⟩ := (valid_answerJSONSchema_iff hschema).mp hvalid
  obtain ⟨value, hvalue⟩ := exists_member ((hnames "answers").mpr rfl)
  obtain ⟨documents, rfl, hids, hanswers⟩ := hvalues value hvalue
  have hinner := (hdistinct.members.2 _ hvalue).members.1
  have hmember := Document.member_of_mem hdistinct.members.1 hvalue
  refine ⟨⟨fun e he => (hnames _).mp (List.mem_map_of_mem he), ?_⟩, fun e he => ?_⟩
  · rw [hmember]
    intro e he
    obtain ⟨question, hquestion, hid⟩ := List.mem_map.mp ((hids _).mp (List.mem_map_of_mem he))
    exact spelled_of_valid (hquestions question hquestion)
      (hanswers question hquestion e.2 (hid ▸ he))
  · obtain ⟨document, hdocument⟩ := exists_member ((hids e.1).mpr (List.mem_map_of_mem he))
    rw [hmember, Document.member_of_mem hinner hdocument]
    exact ranged_of_valid (hquestions e he) (hanswers e he document hdocument)

/-- Exactly one member, the answers, is what a decoded document has. -/
theorem decoded_single {answers : StrMap Answer} (hdistinct : raw.Distinct)
    (honly : ∀ e ∈ raw.members, e.1 = "answers")
    (hdecoded : decodeAnswers (some raw) = .ok answers) :
    ∃ documents, raw = .obj [("answers", .obj documents)] ∧
      intoMap zeroAnswer (intoStruct true answerFields) (.obj documents) StrMap.empty =
        some answers := by
  cases raw with
  | null | bool b | num n | str s | arr items => cases hdecoded
  | obj members =>
    cases members with
    | nil => cases hdecoded
    | cons first rest =>
      have hin : "answers" ∈ (first :: rest).map Prod.fst :=
        honly first List.mem_cons_self ▸ List.mem_map_of_mem List.mem_cons_self
      obtain ⟨value, hsingle⟩ := Document.single_of_names hdistinct.members.1 hin honly
      rw [hsingle] at hdecoded ⊢
      obtain ⟨hnull, hmap⟩ := decodeAnswers_single_iff.mp hdecoded
      obtain ⟨documents, rfl⟩ := obj_of_intoMap hmap hnull
      exact ⟨documents, rfl, hmap⟩

/-- Of the documents that are accepted, in whatever order their probabilities are visited, and that
repeat no name, the schema allows those that are spelled as declared, have nothing empty and have
their numbers within the bounds before they are rounded. -/
theorem accepted_conforms_iff {leeway : String → Leeway} {answers : StrMap Answer}
    (hschema : answerJSONSchema questions = .ok schema) (hdistinct : raw.Distinct)
    (hdecoded : decodeAnswers (some raw) = .ok answers)
    (haccepted : validateAnswersIn leeway questions answers = .ok ()) :
    Valid schema raw ↔ Spelled raw ∧ Ranged questions raw := by
  refine ⟨spelled_of_schema hschema hdistinct, fun ⟨hspelled, hranged⟩ => ?_⟩
  obtain ⟨hquestions, hasked, hanswers⟩ := validateAnswers_ok_iff.mp haccepted
  obtain ⟨documents, rfl, hmap⟩ := decoded_single hdistinct hspelled.1 hdecoded
  have hdocuments := hdistinct.members.2 _ List.mem_cons_self
  obtain ⟨hreads, hinto⟩ := intoMap_entries hdocuments.members.1 hmap
  refine (valid_answerJSONSchema_iff hschema).mpr ⟨_, rfl, fun name => by simp, ?_⟩
  intro value hvalue
  obtain rfl : value = .obj documents := by simpa using hvalue
  refine ⟨documents, rfl, fun id => ?_, fun e he document hdocument => ?_⟩
  · rw [← hreads.keys.mem_iff]
    refine ⟨fun hid => StrMap.mem_keys_of_contains (hasked id hid), fun hid => ?_⟩
    obtain ⟨e, he, rfl⟩ := List.mem_map.mp hid
    obtain ⟨a, hlookup, -⟩ := validateAnswer_ok_iff.mp (hanswers e he)
    exact List.mem_map_of_mem (StrMap.mem_of_lookup hlookup)
  · obtain ⟨a, hlookup, htype, hnoul, hchoice, hscore⟩ := validateAnswer_ok_iff.mp (hanswers e he)
    have hsame := (hreads.lookup hdocument).symm.trans hlookup
    have hstruct := hinto _ hdocument
    rw [Option.some.inj hsame] at hstruct
    have hwithin := hranged e he
    rw [Document.member_of_mem hdistinct.members.1 List.mem_cons_self,
      Document.member_of_mem hdocuments.members.1 hdocument] at hwithin
    exact answer_conforms ((validateQuestions_ok_iff.mp hquestions).2 e he)
      (hdocuments.members.2 _ hdocument) (hspelled.2 _ hdocument) hwithin hstruct
      ⟨htype, hnoul, hchoice, hscore⟩

def doubtQuestion : Question where
  type := .noul
  instructions := "Is the cause unclear?"

def doubtQuestions : StrMap Question := ⟨[("doubt", doubtQuestion)], List.pairwise_singleton _ _⟩

/-- An answer to the question, with further members. -/
def doubtAnswer (noul : ℚ) (more : List (String × Document)) : Document :=
  .obj ([("type", .str "noul"), ("noul", .num (.decimal noul))] ++ more)

def doubtDocument (noul : ℚ) (more : List (String × Document)) : Document :=
  .obj [("answers", .obj [("doubt", doubtAnswer noul more)])]

/-- Documents that the schema does not allow: with a field of another type that is empty, with a
number that is rounded into its bounds, and with two members of one name. -/
def looseDoubts : List Document :=
  [doubtDocument (1 / 2) [("choice", .null)], doubtDocument (1 / 2) [("choice", .str "")],
    doubtDocument (1 / 2) [("legend", .obj [])], doubtDocument (1 + 1 / 10 ^ 17) [],
    doubtDocument (-1 / 10 ^ 400) [],
    .obj [("answers", .obj [("doubt", doubtAnswer (1 / 2) [("choice", .null)])]),
      ("answers", .obj [("doubt", doubtAnswer (1 / 2) [])])]]

theorem doubts_accepted : ∀ raw ∈ doubtDocument (1 / 2) [] :: looseDoubts,
    ∃ answers, decodeAnswers (some raw) = .ok answers ∧
      validateAnswers doubtQuestions answers = .ok () := by
  have hall : ((doubtDocument (1 / 2) [] :: looseDoubts).all fun raw =>
      (decodeAnswers (some raw)).toOption.any fun answers =>
        decide ((validateAnswers doubtQuestions answers).toOption = some ())) = true := by
    decide +kernel
  intro raw hraw
  obtain ⟨answers, hdecoded, haccepted⟩ :=
    (Option.any_eq_true _ _).mp (List.all_eq_true.mp hall raw hraw)
  exact ⟨answers, ok_of_toOption hdecoded, ok_of_toOption (of_decide_eq_true haccepted)⟩

theorem plain_doubt_conforms : ∃ schema answers, answerJSONSchema doubtQuestions = .ok schema ∧
    decodeAnswers (some (doubtDocument (1 / 2) [])) = .ok answers ∧
    validateAnswers doubtQuestions answers = .ok () ∧
    Valid schema (doubtDocument (1 / 2) []) := by
  obtain ⟨schema, hschema⟩ : ∃ schema, answerJSONSchema doubtQuestions = .ok schema := ⟨_, rfl⟩
  obtain ⟨answers, hdecoded, haccepted⟩ := doubts_accepted _ List.mem_cons_self
  have hdistinct : (doubtDocument (1 / 2) []).Distinct := by
    refine .obj (by decide) (List.forall_mem_singleton.mpr (.obj (by decide)
      (List.forall_mem_singleton.mpr (.obj (by decide) ?_))))
    exact List.forall_mem_cons.mpr ⟨.str _, List.forall_mem_singleton.mpr (.num _)⟩
  have hspelled : Spelled (doubtDocument (1 / 2) []) := by
    refine ⟨by simp [doubtDocument, Document.members], ?_⟩
    exact List.forall_mem_singleton.mpr (List.forall_mem_cons.mpr
      ⟨⟨by decide, filled_str (by decide)⟩,
        List.forall_mem_singleton.mpr ⟨by decide, filled_num _⟩⟩)
  have hhalf : (0 : ℚ) ≤ 1 / 2 ∧ (1 : ℚ) / 2 ≤ 1 := by norm_num
  have hranged : Ranged doubtQuestions (doubtDocument (1 / 2) []) := by
    refine List.forall_mem_singleton.mpr ⟨?_, ?_, ?_⟩
    · refine List.forall_mem_cons.mpr ⟨fun hname => absurd hname (by decide),
        List.forall_mem_singleton.mpr fun _ n hn => ?_⟩
      cases hn
      exact hhalf
    · exact List.forall_mem_cons.mpr ⟨fun hname => absurd hname (by decide),
        List.forall_mem_singleton.mpr fun hname => absurd hname (by decide)⟩
    · exact List.forall_mem_cons.mpr ⟨fun hname => absurd hname (by decide),
        List.forall_mem_singleton.mpr fun hname => absurd hname (by decide)⟩
  exact ⟨schema, answers, hschema, hdecoded, haccepted,
    (accepted_conforms_iff hschema hdistinct hdecoded haccepted).mpr ⟨hspelled, hranged⟩⟩

theorem doubtAnswer_valid {noul : ℚ} {more : List (String × Document)}
    (h : Valid (answerSchemaFor doubtQuestion) (doubtAnswer noul more)) :
    (0 ≤ noul ∧ noul ≤ 1) ∧ ∀ e ∈ more, e.1 ∈ ["type", "noul"] := by
  obtain ⟨members, hmembers, hnames, -, hnoul⟩ := (valid_noul_iff rfl).mp h
  cases hmembers
  obtain ⟨n, hn, hunit⟩ := hnoul _ (List.mem_cons_of_mem _ List.mem_cons_self)
  cases hn
  exact ⟨hunit, fun e he => (hnames e.1).mp (List.mem_map_of_mem (List.mem_append_right _ he))⟩

/-- These documents are accepted, and refused by the schema. -/
theorem loose_doubts_not_valid : ∃ schema, answerJSONSchema doubtQuestions = .ok schema ∧
    ∀ raw ∈ looseDoubts, (∃ answers, decodeAnswers (some raw) = .ok answers ∧
      validateAnswers doubtQuestions answers = .ok ()) ∧ ¬Valid schema raw := by
  obtain ⟨schema, hschema⟩ : ∃ schema, answerJSONSchema doubtQuestions = .ok schema := ⟨_, rfl⟩
  refine ⟨schema, hschema, fun raw hraw =>
    ⟨doubts_accepted raw (List.mem_cons_of_mem _ hraw), fun hvalid => ?_⟩⟩
  obtain ⟨members, rfl, -, hvalues⟩ := (valid_answerJSONSchema_iff hschema).mp hvalid
  have hanswer : ∀ {noul : ℚ} {more : List (String × Document)},
      ("answers", .obj [("doubt", doubtAnswer noul more)]) ∈ members →
      (0 ≤ noul ∧ noul ≤ 1) ∧ ∀ e ∈ more, e.1 ∈ ["type", "noul"] := by
    intro noul more hmem
    obtain ⟨documents, hdocuments, -, hanswers⟩ := hvalues _ hmem
    cases hdocuments
    exact doubtAnswer_valid
      (hanswers ("doubt", doubtQuestion) List.mem_cons_self _ List.mem_cons_self)
  simp only [looseDoubts, doubtDocument, List.mem_cons, List.not_mem_nil, or_false,
    Document.obj.injEq] at hraw
  rcases hraw with rfl | rfl | rfl | rfl | rfl | rfl
  · exact absurd ((hanswer List.mem_cons_self).2 _ List.mem_cons_self) (by decide)
  · exact absurd ((hanswer List.mem_cons_self).2 _ List.mem_cons_self) (by decide)
  · exact absurd ((hanswer List.mem_cons_self).2 _ List.mem_cons_self) (by decide)
  · exact absurd (hanswer List.mem_cons_self).1.2 (by decide +kernel)
  · exact absurd (hanswer List.mem_cons_self).1.1 (by decide +kernel)
  · exact absurd ((hanswer List.mem_cons_self).2 _ List.mem_cons_self) (by decide)

end Documents

end RuleRaven.Provider
