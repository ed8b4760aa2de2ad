import RuleRaven.Provider.Decoding
import RuleRaven.Provider.Shapes
import RuleRaven.Provider.Tolerance

namespace RuleRaven.Provider

open Framework JsonSchema

/-- The probability that an answer gives to a key. -/
def probabilityIn (answer : Document) (key : String) : ℚ :=
  ((answer.member "probabilities").member key).number

/-- The numbers of an answer fit together: its distribution sums to 1, its choice is a most
probable one, its score is the mean of its levels. -/
structure Coherent (question : Question) (answer : Document) : Prop where
  total : question.type ≠ .noul →
    ((answer.member "probabilities").members.map fun e => e.2.number).sum = 1
  maximal : question.type = .choice → ∀ key ∈ question.criteria.keys,
    probabilityIn answer key ≤ probabilityIn answer (answer.member "choice").text
  weighted : question.type = .score → (answer.member "score").number =
    ((List.range question.levels.length).map fun k : Nat =>
      (k : ℚ) * probabilityIn answer (Nat.repr k)).sum

section Decoded

variable {question : Question} {d : Document}

/-- The map that a distribution of the schema is decoded to. -/
structure Distributes (keys : List String) (d : Document) (m : StrMap Float64) : Prop where
  mem_keys : ∀ key, key ∈ m.keys ↔ key ∈ keys
  size : m.size = keys.length
  unit : ∀ e ∈ d.members, 0 ≤ e.2.number ∧ e.2.number ≤ 1
  entries : m.entries.Perm (d.members.map fun e => (e.1, floatOf e.2))
  probability : ∀ key ∈ keys, probabilityOf m key = Binary64.rounded (d.member key).number ∧
    0 ≤ (d.member key).number ∧ (d.member key).number ≤ 1

/-- The answer to a choice that the schema allows, as it is decoded. -/
structure DecodedChoice (question : Question) (d : Document) (a : Answer) : Prop where
  noul : a.noul = none
  score : a.score = none
  legend : a.legend.size = 0
  choice : a.choice = (d.member "choice").text ∧ a.choice ∈ question.criteria.keys
  confidence : ∃ v, a.confidence = some v ∧ v.InUnit
  probabilities : Distributes question.criteria.keys (d.member "probabilities") a.probabilities

/-- The answer to a score that the schema allows, as it is decoded. -/
structure DecodedScore (question : Question) (d : Document) (a : Answer) : Prop where
  noul : a.noul = none
  choice : a.choice = ""
  score : a.score = some (.finite (Binary64.rounded (d.member "score").number))
  range : 0 ≤ (d.member "score").number ∧
    (d.member "score").number ≤ (question.levels.length : ℚ) - 1
  legend : a.legend.size = question.levels.length ∧
    validateLegend a.legend 0 [] question.levels = .ok ()
  confidence : ∃ v, a.confidence = some v ∧ v.InUnit
  probabilities : Distributes (levelKeys question) (d.member "probabilities") a.probabilities

/-- An answer that the schema allows, as it is decoded. -/
structure Decodes (question : Question) (d : Document) (a : Answer) : Prop where
  type : a.type = question.type
  noul : question.type = .noul → validateNoulAnswer a = .ok ()
  choice : question.type = .choice → DecodedChoice question d a
  score : question.type = .score → DecodedScore question d a

variable {questions : StrMap Question} {schema : Json} {raw : Document}

end Decoded

section Accepted

variable {leeway : Leeway} {question : Question} {d : Document} {a : Answer}

/-- So few choices and levels that the errors of rounding stay within the tolerances. -/
structure Moderate (question : Question) : Prop where
  choices : question.criteria.size ≤ 2 ^ 22
  levels : question.levels.length ≤ 2 ^ 16

theorem Distributes.accepted {keys : List String} {m : StrMap Float64} (h : Distributes keys d m)
    (hlength : keys.length ≤ 2 ^ 22) (hsum : (d.members.map fun e => e.2.number).sum = 1) :
    validateDistribution leeway keys m = .ok () := by
  refine validateDistribution_ok_iff.mpr ⟨h.size, fun e he => ⟨?_, ?_⟩, ?_⟩
  · exact (h.mem_keys _).mp (List.mem_map_of_mem he)
  · obtain ⟨e', he', rfl⟩ := List.mem_map.mp (h.entries.mem_iff.mp he)
    exact round_inUnit (h.unit e' he').1 (h.unit e' he').2
  · have hperm := ((leeway.range_perm _).trans h.entries).map fun e => e.2.number
    have hcount : d.members.length = keys.length := by
      rw [← h.size, StrMap.size, h.entries.length_eq, List.length_map]
    refine total_within (hperm.trans (List.Perm.of_eq ?_)) (List.forall_mem_map.mpr h.unit) hsum ?_
    · rw [List.map_map, List.map_map]
      rfl
    · rw [List.length_map, hcount]
      exact hlength

theorem DecodedChoice.accepted (h : DecodedChoice question d a) (htype : question.type = .choice)
    (hmoderate : Moderate question) (hcoherent : Coherent question d) :
    validateChoiceAnswer leeway question a = .ok () := by
  obtain ⟨hchoice, hselected⟩ := h.choice
  have hlength : question.criteria.keys.length ≤ 2 ^ 22 := by
    rw [StrMap.keys, List.length_map]
    exact hmoderate.choices
  refine validateChoiceAnswer_ok_iff.mpr ⟨h.noul, h.score, h.legend,
    StrMap.contains_of_mem_keys hselected, h.confidence,
    h.probabilities.accepted hlength (hcoherent.total (by rw [htype]; decide)),
    fun key hkey => ?_⟩
  have hin := (h.probabilities.mem_keys key).mp hkey
  have hle := hcoherent.maximal htype key hin
  rw [← hchoice] at hle
  obtain ⟨hnumber, hlow, -⟩ := h.probabilities.probability key hin
  obtain ⟨htop, -, hhigh⟩ := h.probabilities.probability _ hselected
  rw [hnumber, htop]
  exact selected_within hlow hle hhigh

theorem DecodedScore.accepted (h : DecodedScore question d a) (htype : question.type = .score)
    (hlevels : 2 ≤ question.levels.length) (hmoderate : Moderate question)
    (hcoherent : Coherent question d) : validateScoreAnswer leeway question a = .ok () := by
  obtain ⟨hlow, hhigh⟩ := h.range
  have hmost := hmoderate.levels
  have htop : ((question.levels.length - 1 : Nat) : ℚ) = question.levels.length - 1 :=
    Nat.cast_pred (by omega)
  refine validateScoreAnswer_ok_iff.mpr ⟨h.noul, h.choice, ⟨_, h.score,
    Binary64.rounded_nonneg hlow, ?_, ?_⟩, h.confidence, h.legend.1, h.legend.2, ?_⟩
  · rw [← htop, Binary64.rounded_natCast (by omega)]
    exact Binary64.rounded_le_natCast (by omega) hlow (htop ▸ hhigh)
  · refine score_within hmost (fun i hi => ?_) hlow hhigh (hcoherent.weighted htype)
    exact h.probabilities.probability _ (mem_levelKeys.mpr ⟨i, hi, rfl⟩)
  · refine h.probabilities.accepted ?_ (hcoherent.total (by rw [htype]; decide))
    rw [levelKeys, List.length_map, List.length_range]
    omega

theorem Decodes.accepted {id : String} (hquestion : validateQuestion id question = .ok ())
    (h : Decodes question d a) (hmoderate : Moderate question) (hcoherent : Coherent question d) :
    Answers leeway question a where
  type := h.type
  noul := h.noul
  choice htype := (h.choice htype).accepted htype hmoderate hcoherent
  score htype := (h.score htype).accepted htype (levels_of_score hquestion htype).1 hmoderate
    hcoherent

end Accepted

section Documents

variable {questions : StrMap Question} {schema : Json} {raw : Document}

end Documents

section Skewed

open Binary64

variable {half : Nat}

section Decoded

variable (hhalf : 1 ≤ half) (hmost : half ≤ 2 ^ 50)

include hhalf hmost

end Decoded

end Skewed

end RuleRaven.Provider
