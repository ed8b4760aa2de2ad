import Mathlib.Algebra.Order.Ring.Int
import Mathlib.Tactic.Ring

namespace RuleRaven.Framework

/-- Doubling `n` times, with a jump to `top` as soon as the half of it is reached: the guard
that keeps a doubling loop in 64 bits from wrapping. -/
def cappedDouble (top : Int64) : Nat → Int64 → Int64
  | 0, delay => delay
  | n + 1, delay => if top / 2 ≤ delay then top else cappedDouble top n (delay * 2)

/-- The values that the loop multiplies by two, in order. -/
def doubled (top : Int64) : Nat → Int64 → List Int64
  | 0, _ => []
  | n + 1, delay => if top / 2 ≤ delay then [] else delay :: doubled top n (delay * 2)

/-- The loop applies nothing but these doublings, unless it has jumped. -/
theorem cappedDouble_eq_foldl (top : Int64) (n : Nat) (delay : Int64) :
    cappedDouble top n delay =
      if (doubled top n delay).length = n then
        (doubled top n delay).foldl (fun value _ => value * 2) delay
      else top := by
  induction n generalizing delay with
  | zero => rfl
  | succ n ih =>
    unfold cappedDouble doubled
    split_ifs with hhalf hlength hlength
    · cases hlength
    · rfl
    · rw [ih, if_pos (Nat.succ.inj hlength)]
      rfl
    · rw [ih, if_neg fun h => hlength (congrArg Nat.succ h)]

section Product

/-- A multiple of a unit, with a jump to `top` where the quotient tells that it is larger: the
same guard for one multiplication. -/
def cappedProduct (top unit n : Int64) : Int64 := if top / unit < n then top else n * unit

variable {top unit n : Int64}

theorem quotient_toInt (htop : 0 ≤ top.toInt) (hunit : 0 < unit.toInt) :
    (top / unit).toInt = top.toInt / unit.toInt := by
  have hne : unit ≠ -1 := by
    rintro rfl
    cases hunit
  rw [Int64.toInt_div_of_ne_right _ _ hne]
  exact Int.tdiv_eq_ediv_of_nonneg htop

/-- Where the guard lets a product pass, it does not wrap and is within the cap. -/
theorem product_toInt (htop : 0 ≤ top.toInt) (hunit : 0 < unit.toInt) (hn : 0 ≤ n.toInt)
    (h : ¬top / unit < n) :
    (n * unit).toInt = n.toInt * unit.toInt ∧ n.toInt * unit.toInt ≤ top.toInt := by
  rw [Int64.lt_iff_toInt_lt, quotient_toInt htop hunit, not_lt, Int.le_ediv_iff_mul_le hunit] at h
  have hlt := top.toInt_lt
  have hnonneg : 0 ≤ n.toInt * unit.toInt := mul_nonneg hn hunit.le
  refine ⟨?_, h⟩
  rw [Int64.toInt_mul]
  exact Int.bmod_eq_of_le (by omega) (by omega)

theorem cappedProduct_toInt (htop : 0 ≤ top.toInt) (hunit : 0 < unit.toInt)
    (hn : 0 ≤ n.toInt) :
    (cappedProduct top unit n).toInt = min top.toInt (n.toInt * unit.toInt) := by
  unfold cappedProduct
  split_ifs with h
  · -- the quotient is rounded down, so that the product is past the cap
    rw [Int64.lt_iff_toInt_lt, quotient_toInt htop hunit, Int.ediv_lt_iff_lt_mul hunit] at h
    rw [min_eq_left h.le]
  · obtain ⟨hexact, hle⟩ := product_toInt htop hunit hn h
    rw [hexact, min_eq_right hle]

end Product

theorem half_toInt {top : Int64} (h : 0 ≤ top.toInt) : (top / 2).toInt = top.toInt / 2 :=
  quotient_toInt h (by decide)

/-- A positive value below half of another doubles without wrapping. -/
theorem double_toInt {delay top : Int64} (hpos : 0 < delay) (hle : delay ≤ top)
    (h : ¬top / 2 ≤ delay) :
    (delay * 2).toInt = delay.toInt * 2 ∧ delay.toInt * 2 ≤ top.toInt := by
  rw [Int64.lt_iff_toInt_lt] at hpos
  rw [Int64.le_iff_toInt_le] at hle h
  have hzero : (0 : Int64).toInt = 0 := rfl
  have htwo : (2 : Int64).toInt = 2 := rfl
  have htop := top.toInt_lt
  rw [hzero] at hpos
  rw [half_toInt (by omega)] at h
  have hdouble : (delay * 2).toInt = delay.toInt * 2 := by
    rw [Int64.toInt_mul, htwo]
    exact Int.bmod_eq_of_le (by omega) (by omega)
  exact ⟨hdouble, by omega⟩

/-- What the loop goes on with: a larger value that is still within the cap. -/
theorem double_of_lt_half {delay top : Int64} (hpos : 0 < delay) (hle : delay ≤ top)
    (h : ¬top / 2 ≤ delay) : delay ≤ delay * 2 ∧ delay * 2 ≤ top ∧ 0 < delay * 2 := by
  obtain ⟨hdouble, hfits⟩ := double_toInt hpos hle h
  have hzero : (0 : Int64).toInt = 0 := rfl
  rw [Int64.lt_iff_toInt_lt, hzero] at hpos
  simp only [Int64.le_iff_toInt_le, Int64.lt_iff_toInt_lt, hdouble, hzero]
  omega

section Loop

variable {top delay : Int64}

/-- The loop never lowers the value, and ends at most at the cap. -/
theorem cappedDouble_bounds (n : Nat) (hpos : 0 < delay) (hle : delay ≤ top) :
    delay ≤ cappedDouble top n delay ∧ cappedDouble top n delay ≤ top := by
  induction n generalizing delay with
  | zero => exact ⟨Int64.le_refl _, hle⟩
  | succ n ih =>
    unfold cappedDouble
    split_ifs with hhalf
    · exact ⟨hle, Int64.le_refl _⟩
    · obtain ⟨hgrows, hfits, hpos'⟩ := double_of_lt_half hpos hle hhalf
      obtain ⟨hlow, hhigh⟩ := ih hpos' hfits
      exact ⟨Int64.le_trans hgrows hlow, hhigh⟩

/-- One more round does not lower the result. -/
theorem cappedDouble_le_succ (n : Nat) (hpos : 0 < delay) (hle : delay ≤ top) :
    cappedDouble top n delay ≤ cappedDouble top (n + 1) delay := by
  induction n generalizing delay with
  | zero => exact (cappedDouble_bounds 1 hpos hle).1
  | succ n ih =>
    rw [cappedDouble, cappedDouble.eq_def top (n + 1 + 1)]
    dsimp only
    split_ifs with hhalf
    · exact Int64.le_refl _
    · obtain ⟨_, hfits, hpos'⟩ := double_of_lt_half hpos hle hhalf
      exact ih hpos' hfits

theorem cappedDouble_mono (hpos : 0 < delay) (hle : delay ≤ top) {m n : Nat} (h : m ≤ n) :
    cappedDouble top m delay ≤ cappedDouble top n delay := by
  induction h with
  | refl => exact Int64.le_refl _
  | step _ ih => exact Int64.le_trans ih (cappedDouble_le_succ _ hpos hle)

theorem doubled_exact (n : Nat) (hpos : 0 < delay) (hle : delay ≤ top) :
    ∀ value ∈ doubled top n delay, (value * 2).toInt = value.toInt * 2 := by
  induction n generalizing delay with
  | zero => simp [doubled]
  | succ n ih =>
    unfold doubled
    split_ifs with hhalf
    · simp
    · obtain ⟨_, hfits, hpos'⟩ := double_of_lt_half hpos hle hhalf
      intro value hvalue
      rcases List.mem_cons.mp hvalue with rfl | hvalue
      · exact (double_toInt hpos hle hhalf).1
      · exact ih hpos' hfits value hvalue

/-- Against the capped power of two: the jump comes one unit early at most, and only under an
odd cap, whose half is rounded down. -/
theorem cappedDouble_near (n : Nat) (hpos : 0 < delay) (hle : delay ≤ top) :
    min top.toInt (delay.toInt * 2 ^ n) ≤ (cappedDouble top n delay).toInt ∧
      (cappedDouble top n delay).toInt ≤ min top.toInt (delay.toInt * 2 ^ n) + top.toInt % 2 := by
  induction n generalizing delay with
  | zero =>
    rw [Int64.le_iff_toInt_le] at hle
    simp only [cappedDouble, pow_zero, mul_one]
    omega
  | succ n ih =>
    unfold cappedDouble
    split_ifs with hhalf
    · have hzero : (0 : Int64).toInt = 0 := rfl
      rw [Int64.lt_iff_toInt_lt, hzero] at hpos
      rw [Int64.le_iff_toInt_le] at hle hhalf
      rw [half_toInt (by omega)] at hhalf
      -- at least one doubling is left, so the power is not below twice the value
      have hpower : delay.toInt * 2 ≤ delay.toInt * 2 ^ (n + 1) := by
        apply mul_le_mul_of_nonneg_left _ hpos.le
        exact le_self_pow₀ (by norm_num) (Nat.succ_ne_zero n)
      omega
    · obtain ⟨_, hfits, hpos'⟩ := double_of_lt_half hpos hle hhalf
      have hnear := ih hpos' hfits
      rw [(double_toInt hpos hle hhalf).1, mul_assoc, ← pow_succ'] at hnear
      exact hnear

end Loop

end RuleRaven.Framework
