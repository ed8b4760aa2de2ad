import RuleRaven.Framework.Decode
import RuleRaven.Provider.Rubric
import RuleRaven.Provider.Structured

namespace RuleRaven.Provider

open Framework

section Scalars

variable {d : Document}

theorem round_inUnit {q : ℚ} (hlow : 0 ≤ q) (hhigh : q ≤ 1) :
    (Float64.finite (Binary64.rounded q)).InUnit := by
  have hunit : |q| ≤ 2 ^ (0 : Int) := by
    rw [abs_of_nonneg hlow]
    simpa using hhigh
  have hround := (abs_le.mp (Binary64.abs_rounded_le (by decide) hunit)).2
  exact ⟨_, rfl, Binary64.rounded_nonneg hlow, by simpa using hround⟩

/-- What is not `null` and goes into a `float64` is a number. -/
theorem num_of_intoFloat64 {old value : Float64} (h : intoFloat64 d old = some value)
    (hnull : d ≠ .null) : ∃ n, d = .num n ∧ value = .finite (Binary64.rounded n.value) := by
  cases d with
  | null => exact absurd rfl hnull
  | num n =>
    obtain ⟨q, hq, rfl⟩ := Option.map_eq_some_iff.mp h
    simp only [intoFloat] at hq
    split_ifs at hq
    cases hq
    exact ⟨n, rfl, rfl⟩
  | bool b | str s | arr items | obj members => cases h

/-- The same for a pointer to one. -/
theorem num_of_intoPointer {old value : Option Float64}
    (h : intoPointer (.finite 0) intoFloat64 d old = some value) (hnull : d ≠ .null) :
    ∃ n, d = .num n ∧ value = some (.finite (Binary64.rounded n.value)) := by
  cases d with
  | null => exact absurd rfl hnull
  | num n =>
    obtain ⟨f, hf, rfl⟩ := Option.map_eq_some_iff.mp h
    obtain ⟨m, hm, rfl⟩ := num_of_intoFloat64 hf hnull
    cases hm
    exact ⟨n, rfl, rfl⟩
  | bool b | str s | arr items | obj members => cases h

theorem str_of_intoString {old value : String} (h : intoString d old = some value)
    (hnull : d ≠ .null) : d = .str value := by
  cases d with
  | null => exact absurd rfl hnull
  | str s => rw [Option.some.inj h]
  | bool b | num n | arr items | obj members => cases h

end Scalars

section Objects

variable {members : List (String × Document)}

/-- The `float64` that a number stands for. -/
def floatOf (d : Document) : Float64 := .finite (Binary64.rounded d.number)

theorem numbers_decoded {m : StrMap Float64} (hnames : (members.map Prod.fst).Nodup)
    (hdecoded : intoMap (.finite 0) intoFloat64 (.obj members) StrMap.empty = some m)
    (hnull : ∀ e ∈ members, e.2 ≠ .null) :
    Reads floatOf members m := by
  refine intoMap_reads hnames hdecoded fun e he x hx => ?_
  obtain ⟨n, hn, rfl⟩ := num_of_intoFloat64 hx (hnull e he)
  rw [hn]
  rfl

theorem texts_decoded {m : StrMap String} (hnames : (members.map Prod.fst).Nodup)
    (hdecoded : intoMap "" intoString (.obj members) StrMap.empty = some m)
    (hnull : ∀ e ∈ members, e.2 ≠ .null) :
    Reads Document.text members m := by
  refine intoMap_reads hnames hdecoded fun e he x hx => ?_
  rw [str_of_intoString hx (hnull e he)]
  rfl

end Objects

section Fields

variable {members : List (String × Document)} {a : Answer}

theorem answerFields_nodup : (answerFields.map StructField.name).Nodup := by
  decide

theorem field_mem (k : Fin 7) : answerFields.get k ∈ answerFields := List.get_mem _ _

/-- Each field of a decoded answer comes from the member with its name. -/
structure AnswerOf (members : List (String × Document)) (a : Answer) : Prop where
  type : FieldOf members "type" intoQuestionType (.unknown "") a.type
  noul : FieldOf members "noul" (intoPointer (.finite 0) intoFloat64) none a.noul
  choice : FieldOf members "choice" intoString "" a.choice
  score : FieldOf members "score" (intoPointer (.finite 0) intoFloat64) none a.score
  legend : FieldOf members "legend" (intoMap "" intoString) StrMap.empty a.legend
  probabilities : FieldOf members "probabilities" (intoMap (.finite 0) intoFloat64) StrMap.empty
    a.probabilities
  confidence : FieldOf members "confidence" (intoPointer (.finite 0) intoFloat64) none a.confidence

theorem answerOf_decoded (hexact : ∀ e ∈ members, e.1 ∈ answerFields.map StructField.name)
    (hnames : (members.map Prod.fst).Nodup)
    (h : intoStruct true answerFields (.obj members) zeroAnswer = some a) : AnswerOf members a := by
  have hfield : ∀ {α : Type} {name : String} {get : Answer → α} {set : Answer → α → Answer}
      {into : Into α}, StructField.of name get set into ∈ answerFields →
      (∀ s x, get (set s x) = x) → (∀ f ∈ answerFields, f.name ≠ name → f.Leaves get) →
      FieldOf members name into (get zeroAnswer) (get a) := by
    intro α name get set into hmem hset hleaves
    exact intoStruct_get answerFields_nodup hmem hset hleaves hexact hnames h
  refine ⟨hfield (field_mem 0) (fun _ _ => rfl) ?_, hfield (field_mem 1) (fun _ _ => rfl) ?_,
    hfield (field_mem 2) (fun _ _ => rfl) ?_, hfield (field_mem 3) (fun _ _ => rfl) ?_,
    hfield (field_mem 4) (fun _ _ => rfl) ?_, hfield (field_mem 5) (fun _ _ => rfl) ?_,
    hfield (field_mem 6) (fun _ _ => rfl) ?_⟩
  -- a field sets nothing but its own
  all_goals
    intro f hf hname
    simp only [answerFields, List.mem_cons, List.not_mem_nil, or_false] at hf
    rcases hf with rfl | rfl | rfl | rfl | rfl | rfl | rfl
    all_goals first
      | exact absurd rfl hname
      | exact leaves_of fun _ _ => rfl

theorem exists_member {name : String} (h : name ∈ members.map Prod.fst) :
    ∃ value, (name, value) ∈ members := by
  obtain ⟨e, he, rfl⟩ := List.mem_map.mp h
  exact ⟨e.2, he⟩

end Fields

section Questions

variable {id : String} {question : Question}

theorem validateLevels_ok_iff {seen levels : List String} :
    validateLevels id seen levels = .ok () ↔ (∀ level ∈ levels, isBlank level = false) ∧
      levels.Nodup ∧ ∀ level ∈ levels, level ∉ seen := by
  induction levels generalizing seen with
  | nil => simp [validateLevels]
  | cons level levels ih =>
    unfold validateLevels
    rw [guard_ok, guard_ok, List.contains_iff_mem, ih, Bool.not_eq_true, List.forall_mem_cons,
      List.forall_mem_cons, List.nodup_cons]
    simp only [List.mem_cons, not_or]
    constructor
    · rintro ⟨hvisible, hunseen, hothers, hnodup, hfresh⟩
      exact ⟨⟨hvisible, hothers⟩, ⟨fun hmem => (hfresh _ hmem).1 rfl, hnodup⟩, hunseen,
        fun other hother => (hfresh other hother).2⟩
    · rintro ⟨⟨hvisible, hothers⟩, ⟨hnew, hnodup⟩, hunseen, hlater⟩
      exact ⟨hvisible, hunseen, hothers, hnodup, fun other hother =>
        ⟨fun heq => hnew (heq ▸ hother), hlater other hother⟩⟩

theorem levels_of_score (h : validateQuestion id question = .ok ())
    (htype : question.type = .score) :
    2 ≤ question.levels.length ∧ question.levels.Nodup := by
  unfold validateQuestion at h
  rw [guard_ok, guard_ok, htype] at h
  dsimp only at h
  rw [guard_ok, guard_ok] at h
  exact ⟨not_lt.mp h.2.2.2.1, (validateLevels_ok_iff.mp h.2.2.2.2).2.1⟩

theorem criteria_of_choice (h : validateQuestion id question = .ok ())
    (htype : question.type = .choice) :
    2 ≤ question.criteria.size ∧ "" ∉ question.criteria.keys := by
  unfold validateQuestion at h
  rw [guard_ok, guard_ok, htype] at h
  dsimp only at h
  rw [guard_ok, guard_ok, guard_ok] at h
  refine ⟨not_lt.mp h.2.2.2.1, fun hblank => h.2.2.2.2.1 ?_⟩
  exact List.any_eq_true.mpr ⟨"", hblank, by decide⟩

/-- What `ValidateAnswers` asks of the answer to a question. -/
structure Answers (leeway : Leeway) (question : Question) (a : Answer) : Prop where
  type : a.type = question.type
  noul : question.type = .noul → validateNoulAnswer a = .ok ()
  choice : question.type = .choice → validateChoiceAnswer leeway question a = .ok ()
  score : question.type = .score → validateScoreAnswer leeway question a = .ok ()

end Questions

theorem decodeAnswers_single_iff {value : Document} {answers : StrMap Answer} :
    decodeAnswers (some (.obj [("answers", value)])) = .ok answers ↔
      value ≠ .null ∧ intoMap zeroAnswer (intoStruct true answerFields) value StrMap.empty =
        some answers := by
  have hstruct : intoStruct true [.of "answers" id (fun _ x => x) intoAnswers]
      (.obj [("answers", value)]) none = intoAnswers value none := by
    show ((intoAnswers value none).map fun x => x).bind some = _
    simp
  unfold decodeAnswers
  rw [Option.bind_some, hstruct]
  cases value with
  | null => simp [intoAnswers, intoPointer]
  | bool b | num n | str s | arr items => simp [intoAnswers, intoPointer, intoMap]
  | obj members =>
    have hpointer : intoAnswers (.obj members) none =
        (intoMap zeroAnswer (intoStruct true answerFields) (.obj members) StrMap.empty).map some :=
      rfl
    rw [hpointer]
    cases intoMap zeroAnswer (intoStruct true answerFields) (.obj members) StrMap.empty <;> simp

end RuleRaven.Provider
