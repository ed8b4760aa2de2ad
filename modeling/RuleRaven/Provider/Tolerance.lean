import RuleRaven.Provider.Acceptance

namespace RuleRaven.Provider

open Framework Binary64

section Distributions

/-- A distribution of at most `2 ^ 22` values that sum to 1 is within the tolerance, in whatever
order its rounded values are added. -/
theorem total_within {exact values : List ℚ} (hperm : values.Perm (exact.map rounded))
    (hunit : ∀ q ∈ exact, 0 ≤ q ∧ q ≤ 1) (hsum : exact.sum = 1) (hlength : exact.length ≤ 2 ^ 22) :
    |rounded (sum 0 values - 1)| ≤ probabilityTolerance := by
  have hcount : values.length = exact.length := by rw [hperm.length_eq, List.length_map]
  have hcast : (exact.length : ℚ) ≤ 2 ^ 22 := by exact_mod_cast hlength
  have hdecoded : |(exact.map rounded).sum - (exact.map id).sum| ≤
      exact.length * 2 ^ ((0 : Int) - 54) := by
    refine sum_map_error fun q hq => rounded_error (by decide) ?_
    rw [abs_of_nonneg (hunit q hq).1]
    simpa using (hunit q hq).2
  rw [List.map_id, hsum, ← hperm.sum_eq] at hdecoded
  have hnonneg : ∀ v ∈ values, 0 ≤ v := by
    intro v hv
    obtain ⟨q, hq, rfl⟩ := List.mem_map.mp (hperm.mem_iff.mp hv)
    exact rounded_nonneg (hunit q hq).1
  obtain ⟨hlow, hhigh⟩ := abs_le.mp hdecoded
  norm_num at hlow hhigh
  have hadded := sum_error (k := 1) (by decide) hnonneg le_rfl (by
    rw [hcount]
    norm_num
    linarith)
  rw [hcount, zero_add] at hadded
  obtain ⟨haddedLow, haddedHigh⟩ := abs_le.mp hadded
  norm_num at haddedLow haddedHigh
  have hclose : |sum 0 values - 1| ≤ 2 ^ (-30 : Int) := by
    rw [abs_le]
    norm_num
    constructor <;> linarith
  exact (abs_rounded_le (by decide) hclose).trans (by decide +kernel)

/-- A value is not above a greater one by more than the tolerance after both are values. -/
theorem selected_within {q r : ℚ} (hq : 0 ≤ q) (hle : q ≤ r) (hr : r ≤ 1) :
    rounded q ≤ rounded (rounded r + probabilityTolerance) := by
  have hr0 : 0 ≤ r := hq.trans hle
  have hunit : ∀ {x : ℚ}, 0 ≤ x → x ≤ 1 → |rounded x - x| ≤ 2 ^ ((0 : Int) - 54) := by
    intro x hx hx1
    refine rounded_error (by decide) ?_
    rw [abs_of_nonneg hx]
    simpa using hx1
  have htolerance : 1 / 2 ^ 30 ≤ probabilityTolerance ∧ probabilityTolerance ≤ 1 / 2 := by
    constructor <;> decide +kernel
  have hqerror := (abs_le.mp (hunit hq (hle.trans hr))).2
  obtain ⟨hrlow, hrhigh⟩ := abs_le.mp (hunit hr0 hr)
  norm_num at hqerror hrlow hrhigh
  have hsum : |rounded (rounded r + probabilityTolerance) - (rounded r + probabilityTolerance)| ≤
      2 ^ ((1 : Int) - 54) := by
    refine rounded_error (by decide) ?_
    rw [abs_of_nonneg (add_nonneg (rounded_nonneg hr0) (by linarith [htolerance.1]))]
    norm_num
    linarith [htolerance.2]
  have hlow := (abs_le.mp hsum).1
  norm_num at hlow
  linarith [htolerance.1]

end Distributions

section Scores

variable {fused : Bool} {probabilities : StrMap Float64} {exact : Nat → ℚ} {levels : Nat}

/-- What a level adds, against what it would add exactly. -/
theorem weightedTerm_error {i : Nat} (hi : i < 2 ^ 16)
    (hprobability : probabilityOf probabilities (Nat.repr i) = rounded (exact i))
    (hlow : 0 ≤ exact i) (hhigh : exact i ≤ 1) :
    0 ≤ weightedTerm fused probabilities i ∧
      |weightedTerm fused probabilities i - i * exact i| ≤ 2 ^ (-37 : Int) := by
  have hcast : (i : ℚ) ≤ 2 ^ 16 := by exact_mod_cast hi.le
  have hnonneg : (0 : ℚ) ≤ i := Nat.cast_nonneg i
  have hround : 0 ≤ rounded (exact i) := rounded_nonneg hlow
  have hunit : |exact i| ≤ 2 ^ (0 : Int) := by
    rw [abs_of_nonneg hlow]
    simpa using hhigh
  have hrounded : rounded (exact i) ≤ 1 := by
    simpa using (abs_le.mp (abs_rounded_le (by decide) hunit)).2
  have hproduct : (i : ℚ) * rounded (exact i) ≤ 2 ^ 16 :=
    (mul_le_of_le_one_right hnonneg hrounded).trans hcast
  have hdecoded : |(i : ℚ) * rounded (exact i) - i * exact i| ≤ 2 ^ (-38 : Int) := by
    rw [← mul_sub, abs_mul, abs_of_nonneg hnonneg]
    have herror := rounded_error (by decide) hunit
    refine (mul_le_mul hcast herror (abs_nonneg _) (by norm_num)).trans ?_
    norm_num
  have hmultiplied : |rounded (i * rounded (exact i)) - i * rounded (exact i)| ≤
      2 ^ ((16 : Int) - 54) := by
    refine rounded_error (by decide) ?_
    rw [abs_of_nonneg (mul_nonneg hnonneg hround)]
    exact_mod_cast hproduct
  obtain ⟨hdecodedLow, hdecodedHigh⟩ := abs_le.mp hdecoded
  obtain ⟨hmultipliedLow, hmultipliedHigh⟩ := abs_le.mp hmultiplied
  norm_num at hdecodedLow hdecodedHigh hmultipliedLow hmultipliedHigh
  rw [weightedTerm, hprobability, rounded_natCast (by omega)]
  cases fused with
  | true =>
    refine ⟨mul_nonneg hnonneg hround, abs_le.mpr ?_⟩
    norm_num
    constructor <;> linarith
  | false =>
    refine ⟨rounded_nonneg (mul_nonneg hnonneg hround), abs_le.mpr ?_⟩
    norm_num
    constructor <;> linarith

/-- The score over at most `2 ^ 16` levels is within the tolerance of the exact mean. -/
theorem score_within (hlevels : levels ≤ 2 ^ 16)
    (hprobabilities : ∀ i < levels, probabilityOf probabilities (Nat.repr i) = rounded (exact i) ∧
      0 ≤ exact i ∧ exact i ≤ 1) {score : ℚ} (hscore : 0 ≤ score) (htop : score ≤ (levels : ℚ) - 1)
    (hmean : score = ((List.range levels).map fun i : Nat => (i : ℚ) * exact i).sum) :
    |rounded (weightedScore fused probabilities levels - rounded score)| ≤ scoreTolerance := by
  have hcast : (levels : ℚ) ≤ 2 ^ 16 := by exact_mod_cast hlevels
  have hterm : ∀ i ∈ List.range levels, 0 ≤ weightedTerm fused probabilities i ∧
      |weightedTerm fused probabilities i - i * exact i| ≤ 2 ^ (-37 : Int) := by
    intro i hi
    have hi := List.mem_range.mp hi
    obtain ⟨hprobability, hlow, hhigh⟩ := hprobabilities i hi
    exact weightedTerm_error (by omega) hprobability hlow hhigh
  have hterms := sum_map_error fun i hi => (hterm i hi).2
  rw [← hmean, List.length_range] at hterms
  obtain ⟨hlow, hhigh⟩ := abs_le.mp hterms
  norm_num at hlow hhigh
  have hadded := sum_error (k := 16) (by decide)
    (List.forall_mem_map.mpr fun i hi => (hterm i hi).1) le_rfl (by
      rw [List.length_map, List.length_range]
      norm_num
      linarith)
  rw [List.length_map, List.length_range, zero_add] at hadded
  obtain ⟨haddedLow, haddedHigh⟩ := abs_le.mp hadded
  norm_num at haddedLow haddedHigh
  have hdecoded : |rounded score - score| ≤ 2 ^ ((16 : Int) - 54) := by
    refine rounded_error (by decide) ?_
    rw [abs_of_nonneg hscore]
    norm_num
    linarith
  obtain ⟨hdecodedLow, hdecodedHigh⟩ := abs_le.mp hdecoded
  norm_num at hdecodedLow hdecodedHigh
  have hclose : |weightedScore fused probabilities levels - rounded score| ≤ 2 ^ (-20 : Int) := by
    rw [abs_le, weightedScore]
    norm_num
    constructor <;> linarith
  exact (abs_rounded_le (by decide) hclose).trans (by decide +kernel)

end Scores

end RuleRaven.Provider
