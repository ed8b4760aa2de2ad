import RuleRaven.Provider.Acceptance

namespace RuleRaven.Provider

open Framework

/-- Every text of an answer. -/
def Answer.texts (answer : Answer) : List String :=
  [answer.type.text, answer.choice] ++ answer.legend.entries.flatMap (fun e => [e.1, e.2]) ++
    answer.probabilities.keys

/-- Every text of a set of answers, their IDs included. -/
def answerTexts (answers : StrMap Answer) : List String :=
  answers.entries.flatMap fun entry => entry.1 :: entry.2.texts

/-- The texts of one question that an answer to it may repeat. -/
inductive Question.Offers (question : Question) : String → Prop
  | type : Offers question question.type.text
  | choice {choice : String} (h : choice ∈ question.criteria.keys) : Offers question choice
  | level {level : String} (h : level ∈ question.levels) : Offers question level
  | index {index : Nat} (h : index < question.levels.length) : Offers question (Nat.repr index)

/-- The texts of a question set: its IDs, and what its questions offer. -/
inductive RubricText (questions : StrMap Question) : String → Prop
  | id {id : String} {question : Question} (h : (id, question) ∈ questions.entries) :
      RubricText questions id
  | offered {id text : String} {question : Question} (h : (id, question) ∈ questions.entries)
      (ht : question.Offers text) : RubricText questions text

section Answers

variable {question : Question} {answer : Answer} {text : String}

theorem texts_of_noul (h : validateNoulAnswer answer = .ok ()) :
    ∀ text ∈ answer.texts, text = "" ∨ text = answer.type.text := by
  obtain ⟨-, hchoice, -, hlegend, hprobabilities, -⟩ := validateNoulAnswer_ok_iff.mp h
  have hlegend : answer.legend.entries = [] := List.length_eq_zero_iff.mp hlegend
  have hprobabilities : answer.probabilities.entries = [] :=
    List.length_eq_zero_iff.mp hprobabilities
  intro text htext
  simp only [Answer.texts, StrMap.keys, hchoice, hlegend, hprobabilities, List.flatMap_nil,
    List.map_nil, List.append_nil, List.mem_cons, List.not_mem_nil, or_false] at htext
  exact htext.symm

theorem texts_of_choice {leeway : Leeway}
    (h : validateChoiceAnswer leeway question answer = .ok ()) :
    ∀ text ∈ answer.texts, text = answer.type.text ∨ text ∈ question.criteria.keys := by
  obtain ⟨-, -, hlegend, hchoice, -, hdistribution, -⟩ := validateChoiceAnswer_ok_iff.mp h
  have hprobabilities := (validateDistribution_ok_iff.mp hdistribution).2.1
  have hlegend : answer.legend.entries = [] := List.length_eq_zero_iff.mp hlegend
  intro text htext
  simp only [Answer.texts, hlegend, List.flatMap_nil, List.append_nil, List.mem_append,
    List.mem_cons, List.not_mem_nil, or_false] at htext
  rcases htext with (htype | rfl) | hkey
  · exact Or.inl htype
  · exact Or.inr (StrMap.mem_keys_of_contains hchoice)
  · obtain ⟨e, he, rfl⟩ := List.mem_map.mp hkey
    exact Or.inr (hprobabilities e he).1

theorem repr_cancel {m n : Nat} (h : Nat.repr m = Nat.repr n) : m = n := by
  have hdigits : Nat.toDigits 10 m = Nat.toDigits 10 n := by
    rw [Nat.repr_eq_ofList_toDigits, Nat.repr_eq_ofList_toDigits] at h
    exact String.ofList_injective h
  have happend : Nat.toDigits 10 m ++ [] = Nat.toDigits 10 n ++ [] := by rw [hdigits]
  exact (toDigits_append_inj m n [] [] (by simp [Stop]) (by simp [Stop]) happend).1

/-- A legend of the right size that has every index has nothing else. -/
theorem legend_entries {legend : StrMap String} {levels : List String}
    (hsize : legend.size = levels.length)
    (hlookup : ∀ k (hk : k < levels.length), legend.lookup (Nat.repr k) = some levels[k]) :
    ∀ e ∈ legend.entries, ∃ k, ∃ hk : k < levels.length, e = (Nat.repr k, levels[k]) := by
  have hentry : ∀ k (hk : k < levels.length), (Nat.repr k, levels[k]) ∈ legend.entries :=
    fun k hk => StrMap.mem_of_lookup (hlookup k hk)
  have hnodup : ((List.range levels.length).map Nat.repr).Nodup :=
    List.nodup_range.map fun _ _ h => repr_cancel h
  have hsubset : (List.range levels.length).map Nat.repr ⊆ legend.keys := by
    intro key hkey
    obtain ⟨k, hk, rfl⟩ := List.mem_map.mp hkey
    exact List.mem_map_of_mem (hentry k (List.mem_range.mp hk))
  have hperm : ((List.range levels.length).map Nat.repr).Perm legend.keys := by
    apply (List.subperm_of_subset hnodup hsubset).perm_of_length_le
    simp [StrMap.keys, ← hsize, StrMap.size]
  intro e he
  obtain ⟨k, hk, hkey⟩ := List.mem_map.mp (hperm.mem_iff.mpr (List.mem_map_of_mem he))
  have hk := List.mem_range.mp hk
  have hvalue : e.2 = levels[k] := by
    have hmem : (e.1, e.2) ∈ legend.entries := he
    rw [← hkey] at hmem
    exact StrMap.value_unique hmem (hentry k hk)
  exact ⟨k, hk, Prod.ext hkey.symm hvalue⟩

theorem texts_of_score {leeway : Leeway}
    (h : validateScoreAnswer leeway question answer = .ok ()) :
    ∀ text ∈ answer.texts, text = "" ∨ text = answer.type.text ∨ text ∈ question.levels ∨
      text ∈ levelKeys question := by
  obtain ⟨-, hchoice, -, -, hsize, hlegend, hdistribution⟩ := validateScoreAnswer_ok_iff.mp h
  have hprobabilities := (validateDistribution_ok_iff.mp hdistribution).2.1
  have hlevels : ∀ k (hk : k < question.levels.length),
      answer.legend.lookup (Nat.repr k) = some question.levels[k] := by
    intro k hk
    have hlevel := (validateLegend_ok_iff.mp hlegend).1 k hk
    rwa [Nat.zero_add] at hlevel
  intro text htext
  simp only [Answer.texts, List.mem_append, List.mem_cons, List.not_mem_nil, or_false,
    List.mem_flatMap] at htext
  rcases htext with ((htype | htext) | ⟨e, he, htext⟩) | hkey
  · exact Or.inr (Or.inl htype)
  · exact Or.inl (htext.trans hchoice)
  · obtain ⟨k, hk, rfl⟩ := legend_entries hsize hlevels e he
    rcases htext with rfl | rfl
    · exact Or.inr (Or.inr (Or.inr (List.mem_map_of_mem (List.mem_range.mpr hk))))
    · exact Or.inr (Or.inr (Or.inl (List.getElem_mem hk)))
  · obtain ⟨e, he, rfl⟩ := List.mem_map.mp hkey
    exact Or.inr (Or.inr (Or.inr (hprobabilities e he).1))

/-- An answer that is accepted repeats texts of its question. -/
theorem texts_of_validateAnswer {leeway : String → Leeway} {answers : StrMap Answer} {id : String}
    (hasked : validateQuestion id question = .ok ())
    (h : validateAnswer leeway answers id question = .ok ())
    (hlookup : answers.lookup id = some answer) :
    ∀ text ∈ answer.texts, text = "" ∨ question.Offers text := by
  obtain ⟨found, hfound, htype, hnoul, hchoice, hscore⟩ := validateAnswer_ok_iff.mp h
  rw [hlookup] at hfound
  cases hfound
  intro text htext
  cases hquestion : question.type with
  | noul =>
    rcases texts_of_noul (hnoul hquestion) text htext with hempty | rfl
    · exact Or.inl hempty
    · rw [htype]
      exact Or.inr .type
  | choice =>
    rcases texts_of_choice (hchoice hquestion) text htext with rfl | hkey
    · rw [htype]
      exact Or.inr .type
    · exact Or.inr (.choice hkey)
  | score =>
    rcases texts_of_score (hscore hquestion) text htext with hempty | rfl | hlevel | hkey
    · exact Or.inl hempty
    · rw [htype]
      exact Or.inr .type
    · exact Or.inr (.level hlevel)
    · obtain ⟨index, hindex, rfl⟩ := List.mem_map.mp hkey
      exact Or.inr (.index (List.mem_range.mp hindex))
  | unknown name => exact absurd hquestion (type_of_validateQuestion hasked name)

section Accepted

variable {questions : StrMap Question} {answers : StrMap Answer}

/-- Answers that are accepted contain nothing but texts of the questions. -/
theorem texts_of_validateAnswers (h : validateAnswers questions answers = .ok ()) :
    ∀ text ∈ answerTexts answers, text = "" ∨ RubricText questions text := by
  obtain ⟨hquestions, hknown, hanswers⟩ := validateAnswers_ok_iff.mp h
  intro text htext
  obtain ⟨⟨id, answer⟩, hentry, htext⟩ := List.mem_flatMap.mp htext
  obtain ⟨question, hquestion⟩ :=
    Option.isSome_iff_exists.mp (hknown id (List.mem_map_of_mem hentry))
  have hquestion := StrMap.mem_of_lookup hquestion
  rcases List.mem_cons.mp htext with rfl | htext
  · exact Or.inr (.id hquestion)
  · have hasked := (validateQuestions_ok_iff.mp hquestions).2 _ hquestion
    have hlookup := StrMap.lookup_of_mem hentry
    exact (texts_of_validateAnswer hasked (hanswers _ hquestion) hlookup text htext).imp_right
      fun hoffers => .offered hquestion hoffers

/-- The answer to a choice is one of the choices. -/
theorem choice_of_validateAnswers (h : validateAnswers questions answers = .ok ()) {id : String}
    (hquestion : (id, question) ∈ questions.entries) (htype : question.type = .choice) :
    ∃ answer, answers.lookup id = some answer ∧ answer.choice ∈ question.criteria.keys := by
  obtain ⟨answer, hlookup, -, -, hchoice, -⟩ :=
    validateAnswer_ok_iff.mp ((validateAnswers_ok_iff.mp h).2.2 _ hquestion)
  obtain ⟨-, -, -, hknown, -⟩ := validateChoiceAnswer_ok_iff.mp (hchoice htype)
  exact ⟨answer, hlookup, StrMap.mem_keys_of_contains hknown⟩

end Accepted

end Answers

end RuleRaven.Provider
