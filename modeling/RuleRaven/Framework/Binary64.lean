import Mathlib.Algebra.Order.BigOperators.Group.List
import Mathlib.Algebra.Order.Field.Power
import Mathlib.Data.Int.Log
import Mathlib.Data.Rat.Floor
import Mathlib.Tactic.FieldSimp
import Mathlib.Tactic.Linarith
import Mathlib.Tactic.Positivity
import Mathlib.Tactic.Ring

namespace RuleRaven.Framework.Binary64

/-- The nearest integer, and of two the even one. -/
def nearest (q : ℚ) : Int :=
  if Int.fract q < 1 / 2 then ⌊q⌋
  else if 1 / 2 < Int.fract q then ⌊q⌋ + 1
  else if ⌊q⌋ % 2 = 0 then ⌊q⌋
  else ⌊q⌋ + 1

/-- The exponent of the last binary digit that is kept: 53 digits, and none below `2 ^ -1074`. -/
def digit (q : ℚ) : Int := max (Int.log 2 |q| - 52) (-1074)

/-- The nearest value of the format, of two the one whose last digit is even. There is one zero,
and no largest value: what overflows is for the operation that rounds. -/
def rounded (q : ℚ) : ℚ := nearest (q / 2 ^ digit q) * 2 ^ digit q

/-- Half a unit above the largest finite value, where rounding ends at infinity. -/
def limit : ℚ := 2 ^ 1024 - 2 ^ 970

/-- A running sum, rounded at each step. -/
def sum (start : ℚ) (values : List ℚ) : ℚ := values.foldl (fun s v => rounded (s + v)) start

theorem sum_cons (start v : ℚ) (values : List ℚ) :
    sum start (v :: values) = sum (rounded (start + v)) values := rfl

theorem sum_append (start : ℚ) (front back : List ℚ) :
    sum start (front ++ back) = sum (sum start front) back :=
  List.foldl_append

section Nearest

variable {q r : ℚ} {m : Int}

theorem floor_le_nearest (q : ℚ) : ⌊q⌋ ≤ nearest q ∧ nearest q ≤ ⌊q⌋ + 1 := by
  unfold nearest
  split_ifs <;> omega

theorem nearest_intCast (m : Int) : nearest m = m := by
  simp [nearest]

theorem nearest_mono (h : q ≤ r) : nearest q ≤ nearest r := by
  rcases (Int.floor_mono h).lt_or_eq with hlt | heq
  · have hq := (floor_le_nearest q).2
    have hr := (floor_le_nearest r).1
    omega
  · have hfract : Int.fract q ≤ Int.fract r := by
      rw [Int.fract, Int.fract, heq]
      linarith
    unfold nearest
    rw [heq]
    split_ifs <;> first | omega | (exfalso; linarith)

theorem abs_nearest_sub (q : ℚ) : |(nearest q : ℚ) - q| ≤ 1 / 2 := by
  have hsplit : q = ⌊q⌋ + Int.fract q := (Int.floor_add_fract q).symm
  have hnonneg := Int.fract_nonneg q
  have hlt := Int.fract_lt_one q
  rw [abs_le]
  unfold nearest
  split_ifs with hlow hhigh
  · constructor <;> linarith
  · push_cast
    constructor <;> linarith
  · constructor <;> linarith
  · push_cast
    constructor <;> linarith

end Nearest

section Digit

variable {x : ℚ} {k : Int}

theorem two_zpow_pos (k : Int) : (0 : ℚ) < 2 ^ k := zpow_pos two_pos k

/-- A power of two in units of a smaller one. -/
theorem zpow_div_zpow {d : Int} (h : d ≤ k) : ∃ m : Int, (2 : ℚ) ^ k / 2 ^ d = m := by
  refine ⟨2 ^ (k - d).toNat, ?_⟩
  rw [← zpow_sub₀ two_ne_zero]
  push_cast
  rw [← zpow_natCast, Int.toNat_of_nonneg (sub_nonneg.mpr h)]

theorem log_le_of_abs_lt (h : |x| < 2 ^ k) (hx : x ≠ 0) : Int.log 2 |x| < k := by
  have hlow := Int.zpow_log_le_self (R := ℚ) Nat.one_lt_two (abs_pos.mpr hx)
  have hlt := lt_of_le_of_lt hlow h
  push_cast at hlt
  exact (zpow_lt_zpow_iff_right₀ one_lt_two).mp hlt

theorem digit_zero : digit 0 = -52 := by decide +kernel

theorem digit_le_of_abs_lt (h : |x| < 2 ^ k) (hx : x ≠ 0) : digit x ≤ max (k - 53) (-1074) := by
  have hlog := log_le_of_abs_lt h hx
  unfold digit
  omega

theorem rounded_zero : rounded 0 = 0 := by decide +kernel

/-- The bound of a value bounds what it is rounded to, if it is a multiple of the last digit. -/
theorem rounded_le {b : ℚ} {m : Int} (hb : b / 2 ^ digit x = m) (h : x ≤ b) : rounded x ≤ b := by
  have hpos := two_zpow_pos (digit x)
  have hle : nearest (x / 2 ^ digit x) ≤ m := by
    rw [← nearest_intCast m, ← hb]
    exact nearest_mono (div_le_div_of_nonneg_right h hpos.le)
  have hcast : (nearest (x / 2 ^ digit x) : ℚ) ≤ b / 2 ^ digit x := by
    rw [hb]
    exact_mod_cast hle
  exact (le_div_iff₀ hpos).mp hcast

theorem le_rounded {b : ℚ} {m : Int} (hb : b / 2 ^ digit x = m) (h : b ≤ x) : b ≤ rounded x := by
  have hpos := two_zpow_pos (digit x)
  have hle : m ≤ nearest (x / 2 ^ digit x) := by
    rw [← nearest_intCast m, ← hb]
    exact nearest_mono (div_le_div_of_nonneg_right h hpos.le)
  have hcast : b / 2 ^ digit x ≤ (nearest (x / 2 ^ digit x) : ℚ) := by
    rw [hb]
    exact_mod_cast hle
  exact (div_le_iff₀ hpos).mp hcast

theorem rounded_nonneg (h : 0 ≤ x) : 0 ≤ rounded x :=
  le_rounded (m := 0) (by simp) h

/-- A value of the format is not changed. -/
theorem rounded_of_digit_le {m : Int} {e : Int} (hx : x = m * 2 ^ e) (h : digit x ≤ e) :
    rounded x = x := by
  obtain ⟨n, hn⟩ := zpow_div_zpow h
  have hunits : x / 2 ^ digit x = ((m * n : Int) : ℚ) := by
    push_cast
    rw [← hn, ← mul_div_assoc, ← hx]
  rw [rounded, hunits, nearest_intCast, ← hunits, div_mul_cancel₀ _ (two_zpow_pos _).ne']

theorem abs_rounded_sub_le (x : ℚ) : |rounded x - x| ≤ 2 ^ (digit x - 1) := by
  have hpos := two_zpow_pos (digit x)
  have hunits : rounded x - x = (nearest (x / 2 ^ digit x) - x / 2 ^ digit x) * 2 ^ digit x := by
    rw [sub_mul, div_mul_cancel₀ _ hpos.ne']
    rfl
  rw [hunits, abs_mul, abs_of_pos hpos, zpow_sub_one₀ two_ne_zero, mul_comm, ← one_div]
  exact mul_le_mul_of_nonneg_left (abs_nearest_sub _) hpos.le

theorem digit_nonpos (h : |x| < 2 ^ 53) : digit x ≤ 0 := by
  by_cases hzero : x = 0
  · rw [hzero, digit_zero]
    omega
  · exact digit_le_of_abs_lt (k := 53) (by exact_mod_cast h) hzero

theorem natCast_abs_lt {n : Nat} (hn : n < 2 ^ 53) : |(n : ℚ)| < 2 ^ 53 := by
  rw [abs_of_nonneg (Nat.cast_nonneg n)]
  exact_mod_cast hn

/-- Integers of 53 digits are values of the format. -/
theorem rounded_natCast {n : Nat} (hn : n < 2 ^ 53) : rounded n = n :=
  rounded_of_digit_le (m := n) (e := 0) (by simp) (digit_nonpos (natCast_abs_lt hn))

theorem rounded_le_natCast {n : Nat} (hn : n < 2 ^ 53) (hx : 0 ≤ x) (h : x ≤ n) :
    rounded x ≤ n := by
  have habs : |x| < 2 ^ 53 := by
    rw [abs_of_nonneg hx]
    exact lt_of_le_of_lt h ((le_abs_self _).trans_lt (natCast_abs_lt hn))
  obtain ⟨m, hm⟩ := zpow_div_zpow (digit_nonpos habs)
  refine rounded_le (m := n * m) ?_ h
  push_cast
  rw [← hm, zpow_zero, mul_one_div]

variable (hk : -52 ≤ k)

include hk

theorem digit_le (hx : |x| ≤ 2 ^ k) : digit x ≤ k := by
  by_cases hzero : x = 0
  · rw [hzero, digit_zero]
    omega
  · have hnext : |x| < 2 ^ (k + 1) :=
      lt_of_le_of_lt hx (zpow_lt_zpow_right₀ one_lt_two (Int.lt_succ k))
    have hdigit := digit_le_of_abs_lt hnext hzero
    omega

theorem abs_rounded_le (hx : |x| ≤ 2 ^ k) : |rounded x| ≤ 2 ^ k := by
  obtain ⟨m, hm⟩ := zpow_div_zpow (digit_le hk hx)
  rw [abs_le] at hx ⊢
  refine ⟨le_rounded (m := -m) ?_ hx.1, rounded_le hm hx.2⟩
  rw [neg_div, hm]
  push_cast
  rfl

/-- What rounding may change. -/
theorem rounded_error (hx : |x| ≤ 2 ^ k) : |rounded x - x| ≤ 2 ^ (k - 54) := by
  rcases hx.lt_or_eq with hlt | heq
  · by_cases hzero : x = 0
    · rw [hzero, rounded_zero, sub_zero, abs_zero]
      exact (two_zpow_pos _).le
    · have hdigit := digit_le_of_abs_lt hlt hzero
      refine (abs_rounded_sub_le x).trans (zpow_le_zpow_right₀ one_le_two ?_)
      omega
  · have hfixed : rounded x = x := by
      rcases abs_choice x with hpos | hneg
      · exact rounded_of_digit_le (m := 1) (by rw [← hpos, heq]; simp) (digit_le hk hx)
      · refine rounded_of_digit_le (m := -1) (e := k) ?_ (digit_le hk hx)
        rw [← heq, hneg]
        simp
    rw [hfixed, sub_self, abs_zero]
    exact (two_zpow_pos _).le

/-- A running sum of values that are not negative, which stays below a power of two with all its
errors. -/
theorem sum_error {values : List ℚ} (hvalues : ∀ v ∈ values, 0 ≤ v) {start : ℚ}
    (hstart : 0 ≤ start)
    (hbound : start + values.sum + values.length * 2 ^ (k - 54) ≤ (2 : ℚ) ^ k) :
    |sum start values - (start + values.sum)| ≤ values.length * 2 ^ (k - 54) := by
  induction values generalizing start with
  | nil => simp [sum]
  | cons v values ih =>
    obtain ⟨hv, hrest⟩ := List.forall_mem_cons.mp hvalues
    have hunit := two_zpow_pos (k - 54)
    have hlength : (0 : ℚ) ≤ values.length * 2 ^ (k - 54) := by positivity
    have hsum : 0 ≤ values.sum := List.sum_nonneg hrest
    rw [List.sum_cons, List.length_cons] at hbound ⊢
    push_cast at hbound ⊢
    have hstep : |rounded (start + v) - (start + v)| ≤ 2 ^ (k - 54) := by
      refine rounded_error hk ?_
      rw [abs_of_nonneg (add_nonneg hstart hv)]
      linarith
    obtain ⟨hlow, hhigh⟩ := abs_le.mp hstep
    have htail := ih hrest (rounded_nonneg (add_nonneg hstart hv)) (by linarith)
    obtain ⟨htailLow, htailHigh⟩ := abs_le.mp htail
    rw [sum_cons, abs_le]
    constructor <;> linarith

end Digit

section Sums

variable {α : Type}

/-- Sums whose items are close. -/
theorem sum_map_error {f g : α → ℚ} {ε : ℚ} {items : List α}
    (h : ∀ a ∈ items, |f a - g a| ≤ ε) :
    |(items.map f).sum - (items.map g).sum| ≤ items.length * ε := by
  induction items with
  | nil => simp
  | cons a items ih =>
    obtain ⟨hfirst, hrest⟩ := List.forall_mem_cons.mp h
    obtain ⟨hlow, hhigh⟩ := abs_le.mp hfirst
    obtain ⟨hrestLow, hrestHigh⟩ := abs_le.mp (ih hrest)
    simp only [List.map_cons, List.sum_cons, List.length_cons]
    push_cast
    rw [abs_le]
    constructor <;> linarith

end Sums

section Absorption

variable {x v : ℚ} {k : Int}

end Absorption

end RuleRaven.Framework.Binary64
