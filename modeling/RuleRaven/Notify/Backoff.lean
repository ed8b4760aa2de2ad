import RuleRaven.Framework.Doubling
import RuleRaven.Notify.Dispatcher

namespace RuleRaven.Notify

open Framework

namespace Dispatcher

variable (d : Dispatcher)

/-- The last comparison of `backoff` changes nothing: the loop stays below the maximum. -/
theorem backoffLoop_eq (n : Nat) {delay : Duration} (hpos : 0 < delay)
    (hle : delay ≤ d.maxBackoff) : d.backoffLoop n delay = cappedDouble d.maxBackoff n delay := by
  induction n generalizing delay with
  | zero => exact if_neg (Int64.not_lt.mpr hle)
  | succ n ih =>
    unfold backoffLoop cappedDouble
    split_ifs with hhalf
    · rfl
    · obtain ⟨_, hfits, hpos'⟩ := double_of_lt_half hpos hle hhalf
      exact ih hpos' hfits

theorem backoff_eq (attempt : Int) :
    d.backoff attempt = cappedDouble d.maxBackoff (attempt - 1).toNat d.initialBackoff :=
  d.backoffLoop_eq _ d.positive.2.2.2 d.initialBackoff_le

theorem backoff_bounds (attempt : Int) :
    d.initialBackoff ≤ d.backoff attempt ∧ d.backoff attempt ≤ d.maxBackoff := by
  rw [backoff_eq]
  exact cappedDouble_bounds _ d.positive.2.2.2 d.initialBackoff_le

/-- The delay of a retry: at least the backoff, whatever the destination asks for, and at most
the maximum. -/
theorem classify_delay {attempts : Int} {err : DeliveryError}
    (h : (d.classify attempts err).1 = .retryable) :
    d.backoff attempts ≤ (d.classify attempts err).2 ∧
      (d.classify attempts err).2 ≤ d.maxBackoff := by
  have hbackoff := (d.backoff_bounds attempts).2
  unfold classify at h ⊢
  split_ifs at h ⊢ with hretry
  · dsimp only
    split
    · exact ⟨Int64.le_refl _, hbackoff⟩
    · rename_i e _
      split_ifs with hlater hcap
      · exact ⟨hbackoff, Int64.le_refl _⟩
      · exact ⟨Int64.le_of_lt hlater, Int64.not_lt.mp hcap⟩
      · exact ⟨Int64.le_refl _, hbackoff⟩

/-- A time after a positive delay is later. -/
theorem lt_add {now : Time} {delay : Duration} (h : 0 < delay) : now < now.add delay := by
  have hpos := Int64.lt_iff_toInt_lt.mp h
  exact lt_add_of_pos_right now hpos

theorem initialBackoff_pos : 0 < d.initialBackoff := d.positive.2.2.2

end Dispatcher

end RuleRaven.Notify
