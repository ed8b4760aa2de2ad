import RuleRaven.Framework.Doubling
import RuleRaven.Notify.Destination

namespace RuleRaven.Notify

open Framework

section Meaning

variable (parseTime : String → Option Time) (value : String) (now : Time)

/-- How long it is until the date in a text, if that is still to come. -/
def untilDate : Int :=
  match parseTime value with
  | none => 0
  | some time => max 0 (time - now)

/-- What a `Retry-After` header asks for, in nanoseconds and without a limit: a number of
seconds, or to wait for a date. -/
def requestedDelay (number : String → Option Int) : Int :=
  if value = "" then 0
  else match number value with
    | some seconds => max 0 (seconds * 1000000000)
    | none => untilDate parseTime value now

/-- A number that asks for no delay, but is taken for a date that is still to come. -/
def Misread : Prop :=
  ∃ seconds ≤ 0, Provider.parseInt64 value = some seconds ∧
    ∃ time, parseTime value = some time ∧ now < time

end Meaning

/-- The numbers that the webhook reads as such. -/
def positiveInt64 (value : String) : Option Int :=
  (Provider.parseInt64 (trimSpace value)).filter (0 < ·)

section Delays

variable {parseTime : String → Option Time} {value : String} {now : Time}

theorem untilDate_nonneg : 0 ≤ untilDate parseTime value now := by
  unfold untilDate
  split
  · exact le_refl _
  · exact le_max_left _ _

theorem untilDate_pos_iff :
    0 < untilDate parseTime value now ↔ ∃ time, parseTime value = some time ∧ now < time := by
  unfold untilDate
  cases parseTime value with
  | none => simp
  | some time => simp

theorem requestedDelay_nonneg {number : String → Option Int} :
    0 ≤ requestedDelay parseTime value now number := by
  unfold requestedDelay
  split_ifs
  · exact le_refl _
  · split
    · exact le_max_left _ _
    · exact untilDate_nonneg

/-- The difference of a date that is still to come, cut off at the largest duration. -/
theorem sub_toInt_of_lt {time : Time} (h : now < time) :
    (Time.sub time now).toInt = min (2 ^ 63 - 1) (max 0 (time - now)) := by
  have hpos : 0 < time - now := sub_pos.mpr h
  have hlow : (-2 ^ 63 : Int) ≤ min (2 ^ 63 - 1) (time - now) :=
    le_min (by norm_num) (le_trans (by norm_num) hpos.le)
  rw [Time.sub_toInt, max_eq_right hpos.le, max_eq_right hlow]

theorem ofInt_toInt {seconds : Int} (hpos : 0 < seconds) (hlt : seconds < 2 ^ 63) :
    (Int64.ofInt seconds).toInt = seconds :=
  Int64.toInt_ofInt_of_le (by omega) hlt

theorem seconds_toInt {top : Duration} (htop : 0 ≤ top) {seconds : Int} (hpos : 0 < seconds)
    (hlt : seconds < 2 ^ 63) :
    (cappedProduct top 1000000000 (Int64.ofInt seconds)).toInt =
      min top.toInt (max 0 (seconds * 1000000000)) := by
  have hseconds := ofInt_toInt hpos hlt
  have hunit : (1000000000 : Int64).toInt = 1000000000 := rfl
  rw [cappedProduct_toInt (Int64.le_iff_toInt_le.mp htop) (by decide) (by omega), hseconds, hunit,
    max_eq_right (by omega)]

/-- The provider compares with the largest number of seconds that is a duration. -/
theorem provider_seconds {seconds : Int} (hpos : 0 < seconds) (hlt : seconds < 2 ^ 63) :
    (if 9223372036 < seconds then Int64.maxValue else Int64.ofInt (seconds * 1000000000)) =
      cappedProduct Int64.maxValue 1000000000 (Int64.ofInt seconds) := by
  have hguard : Int64.maxValue / 1000000000 < Int64.ofInt seconds ↔ 9223372036 < seconds := by
    have hquotient : (Int64.maxValue / 1000000000).toInt = 9223372036 := by decide
    rw [Int64.lt_iff_toInt_lt, hquotient, ofInt_toInt hpos hlt]
  unfold cappedProduct
  simp only [hguard, Int64.ofInt_mul]
  rfl

/-- The webhook compares with the seconds of its maximum, and no product that is left is larger. -/
theorem webhook_seconds {top : Duration} (htop : 0 < top) {seconds : Int} (hpos : 0 < seconds)
    (hlt : seconds < 2 ^ 63) :
    (if 0 < top ∧ top / 1000000000 < Int64.ofInt seconds then top
      else if 0 < top ∧ top < Int64.ofInt seconds * 1000000000 then top
      else Int64.ofInt seconds * 1000000000) =
      cappedProduct top 1000000000 (Int64.ofInt seconds) := by
  have hnonneg : 0 ≤ top.toInt := (Int64.lt_iff_toInt_lt.mp htop).le
  unfold cappedProduct
  simp only [htop, true_and]
  split_ifs with hguard hlarge
  · rfl
  · have hseconds := ofInt_toInt hpos hlt
    obtain ⟨hexact, hle⟩ := product_toInt hnonneg (by decide) (by omega) hguard
    rw [Int64.lt_iff_toInt_lt, hexact] at hlarge
    omega
  · rfl

theorem capped_toInt {top : Duration} (htop : 0 < top) (delay : Duration) :
    (if 0 < top ∧ top < delay then top else delay).toInt = min top.toInt delay.toInt := by
  simp only [htop, true_and, Int64.lt_iff_toInt_lt]
  split_ifs with hlarge
  · rw [min_eq_left hlarge.le]
  · rw [min_eq_right (not_lt.mp hlarge)]

/-- No maximum is above the largest duration, so a delay may be cut off there before. -/
theorem min_largest (top : Duration) (delay : Int) :
    min top.toInt (min (2 ^ 63 - 1) delay) = min top.toInt delay := by
  have hmax : top.toInt ≤ 2 ^ 63 - 1 := Int.le_sub_one_of_lt top.toInt_lt
  rw [← min_assoc, min_eq_left hmax]

/-- The provider's parser: the delay that is asked for, cut off at the largest duration. -/
theorem providerDelay (P : Provider.Library) (value : String) (now : Time) :
    (Provider.parseRetryAfter P value now).toInt =
      min (2 ^ 63 - 1)
        (requestedDelay P.parseTime (trimSpace value) now Provider.parseInt64) := by
  unfold Provider.parseRetryAfter requestedDelay
  dsimp only
  split_ifs with hempty
  · rfl
  · cases hparse : Provider.parseInt64 (trimSpace value) with
    | some seconds =>
      obtain ⟨-, hlt⟩ := Provider.parseInt64_bounds hparse
      dsimp only
      split_ifs with hpos hlarge
      · rw [max_eq_left (by omega)]
        rfl
      all_goals
        have hseconds := seconds_toInt (by decide : 0 ≤ Int64.maxValue) (not_le.mp hpos) hlt
        rw [← provider_seconds (not_le.mp hpos) hlt] at hseconds
      · rwa [if_pos hlarge] at hseconds
      · rwa [if_neg hlarge] at hseconds
    | none =>
      unfold untilDate
      cases P.parseTime (trimSpace value) with
      | none => rfl
      | some time =>
        dsimp only
        split_ifs with hpast
        · rw [max_eq_left (sub_nonpos.mpr hpast)]
          rfl
        · exact sub_toInt_of_lt (not_le.mp hpast)

/-- The webhook's parser: the delay that is asked for, if only positive numbers are numbers, cut
off at the maximum. -/
theorem webhookDelay (L : Webhook.Library) (value : String) (now : Time) {top : Duration}
    (htop : 0 < top) :
    (Webhook.parseRetryAfter L value now top).toInt =
      min top.toInt (requestedDelay L.parseTime value now positiveInt64) := by
  have hpositive : 0 < top.toInt := Int64.lt_iff_toInt_lt.mp htop
  unfold Webhook.parseRetryAfter requestedDelay positiveInt64
  dsimp only
  by_cases hempty : value = ""
  · rw [if_pos hempty, if_pos hempty, min_eq_right hpositive.le]
    rfl
  · rw [if_neg hempty, if_neg hempty]
    cases hparse : (Provider.parseInt64 (trimSpace value)).filter (0 < ·) with
    | some seconds =>
      obtain ⟨hnumber, hpos⟩ := Option.filter_eq_some_iff.mp hparse
      have hpos : 0 < seconds := by simpa using hpos
      obtain ⟨-, hlt⟩ := Provider.parseInt64_bounds hnumber
      dsimp only
      rw [webhook_seconds htop hpos hlt, seconds_toInt (Int64.le_of_lt htop) hpos hlt]
    | none =>
      unfold untilDate
      cases L.parseTime value with
      | none => exact capped_toInt htop 0
      | some time =>
        dsimp only
        by_cases hlater : now < time
        · rw [if_pos hlater, capped_toInt htop, sub_toInt_of_lt hlater, min_largest]
        · rw [if_neg hlater, capped_toInt htop, max_eq_left (sub_nonpos.mpr (not_lt.mp hlater))]
          rfl

/-- Whatever the header is, the delay is within the maximum. -/
theorem parseRetryAfter_bounds (L : Webhook.Library) (value : String) (now : Time)
    {top : Duration} (htop : 0 < top) :
    0 ≤ Webhook.parseRetryAfter L value now top ∧
      Webhook.parseRetryAfter L value now top ≤ top := by
  have hpositive : 0 < top.toInt := Int64.lt_iff_toInt_lt.mp htop
  have hdelay := webhookDelay L value now htop
  rw [Int64.le_iff_toInt_le, Int64.le_iff_toInt_le, hdelay]
  exact ⟨le_min hpositive.le requestedDelay_nonneg, min_le_left _ _⟩

end Delays

section Agreement

variable {parseTime : String → Option Time} {value : String} {now : Time}

theorem misread_iff : Misread parseTime value now ↔
    (∃ seconds ≤ 0, Provider.parseInt64 value = some seconds) ∧
      0 < untilDate parseTime value now := by
  rw [untilDate_pos_iff]
  constructor
  · rintro ⟨seconds, hle, hparse, hlater⟩
    exact ⟨⟨seconds, hle, hparse⟩, hlater⟩
  · rintro ⟨⟨seconds, hle, hparse⟩, hlater⟩
    exact ⟨seconds, hle, hparse, hlater⟩

/-- Within any limit, the two readings of a header differ only where it is misread. -/
theorem readings_agree_iff (hvalue : unspaced value = true) {top : Int} (htop : 0 < top) :
    min top (requestedDelay parseTime value now positiveInt64) =
        min top (requestedDelay parseTime value now Provider.parseInt64) ↔
      ¬Misread parseTime value now := by
  have hnumber : positiveInt64 value = (Provider.parseInt64 value).filter (0 < ·) := by
    rw [positiveInt64, trimSpace_of_unspaced hvalue]
  rw [misread_iff]
  unfold requestedDelay
  rw [hnumber]
  by_cases hempty : value = ""
  · rw [if_pos hempty, if_pos hempty, hempty]
    refine iff_of_true rfl ?_
    rintro ⟨⟨seconds, -, hparse⟩, -⟩
    cases hparse
  rw [if_neg hempty, if_neg hempty]
  cases hparse : Provider.parseInt64 value with
  | none => simp
  | some seconds =>
    by_cases hpos : 0 < seconds
    · rw [Option.filter_some_pos (by simpa using hpos)]
      refine iff_of_true rfl ?_
      rintro ⟨⟨_, hle, hsame⟩, -⟩
      cases hsame
      omega
    · -- the provider takes it for no delay, and the webhook looks for a date
      have hnonneg : 0 ≤ untilDate parseTime value now := untilDate_nonneg
      have hzero : max 0 (seconds * 1000000000) = 0 := max_eq_left (by omega)
      rw [Option.filter_some_neg (by simpa using hpos)]
      dsimp only
      rw [hzero, min_eq_right htop.le]
      constructor
      · rintro hsame ⟨-, hlater⟩
        have hsmall := min_le_iff.mp hsame.le
        omega
      · intro hnot
        have hnone : ¬0 < untilDate parseTime value now :=
          fun hlater => hnot ⟨⟨seconds, not_lt.mp hpos, rfl⟩, hlater⟩
        rw [le_antisymm (not_lt.mp hnone) hnonneg, min_eq_right htop.le]

/-- The products that the two parsers form of a number of seconds, each behind its own guard, are
not wrapped. -/
structure Exact (top : Duration) (n : Nat) : Prop where
  webhook : ¬top / 1000000000 < Int64.ofInt n →
    (Int64.ofInt n * 1000000000).toInt = n * 1000000000
  provider : ¬(9223372036 : Int) < n → (Int64.ofInt (n * 1000000000)).toInt = n * 1000000000

theorem seconds_exact {top : Duration} (htop : 0 < top) {n : Nat} (hpos : 1 ≤ n)
    (hlt : n < 2 ^ 63) : Exact top n := by
  have hseconds : (Int64.ofInt n).toInt = n := ofInt_toInt (by omega) (by omega)
  have hnonneg : 0 ≤ top.toInt := (Int64.lt_iff_toInt_lt.mp htop).le
  constructor
  · intro hguard
    rw [(product_toInt hnonneg (by decide) (by omega) hguard).1, hseconds]
    rfl
  · intro hguard
    exact Int64.toInt_ofInt_of_le (by omega) (by omega)

theorem requestedDelay_decimal {n : Nat} (hpos : 1 ≤ n) (hlt : n < 2 ^ 63)
    (hdecimal : Provider.Decimal value n) :
    requestedDelay parseTime value now Provider.parseInt64 = n * 1000000000 ∧
      ¬Misread parseTime value now := by
  have hparse := Provider.parseInt64_decimal hdecimal hlt
  constructor
  · have hne : value ≠ "" := by
      rintro rfl
      cases hparse
    unfold requestedDelay
    rw [if_neg hne, hparse]
    exact max_eq_right (by omega)
  · rintro ⟨seconds, hle, hsame, -⟩
    rw [hparse] at hsame
    cases hsame
    omega

section Parsers

variable (parseTime : String → Option Time) (W : Webhook.Library) (P : Provider.Library)
  {value : String} (hvalue : unspaced value = true) (now : Time) {top : Duration}

include hvalue

theorem capped_provider_toInt :
    min top.toInt (Provider.parseRetryAfter { P with parseTime := parseTime } value now).toInt =
      min top.toInt (requestedDelay parseTime value now Provider.parseInt64) := by
  have hprovider := providerDelay { P with parseTime := parseTime } value now
  rw [trimSpace_of_unspaced hvalue] at hprovider
  rw [hprovider, min_largest]

theorem webhook_eq_capped_provider_iff (htop : 0 < top) :
    (Webhook.parseRetryAfter { W with parseTime := parseTime } value now top).toInt =
        min top.toInt
          (Provider.parseRetryAfter { P with parseTime := parseTime } value now).toInt ↔
      ¬Misread parseTime value now := by
  have hpositive : 0 < top.toInt := Int64.lt_iff_toInt_lt.mp htop
  rw [capped_provider_toInt parseTime P hvalue now,
    webhookDelay { W with parseTime := parseTime } value now htop]
  exact readings_agree_iff hvalue hpositive

end Parsers

/-- The two parsers of `Retry-After`, whatever counts as a date: the webhook's is bounded, and it
is the provider's cut off at the maximum, except where a number is misread as a date. -/
theorem retryAfters_agree_iff (parseTime : String → Option Time) (W : Webhook.Library)
    (P : Provider.Library) (value : String) (hvalue : unspaced value = true) (now : Time)
    (top : Duration) (htop : 0 < top) :
    let webhook := Webhook.parseRetryAfter { W with parseTime := parseTime } value now top
    let provider := Provider.parseRetryAfter { P with parseTime := parseTime } value now
    (0 ≤ webhook ∧ webhook ≤ top) ∧
      (webhook.toInt = min top.toInt provider.toInt ↔ ¬Misread parseTime value now) ∧
      ∀ n : Nat, 1 ≤ n → n < 2 ^ 63 → Provider.Decimal value n →
        webhook.toInt = min top.toInt (n * 1000000000) ∧
          webhook.toInt = min top.toInt provider.toInt ∧ Exact top n := by
  intro webhook provider
  have hiff := webhook_eq_capped_provider_iff parseTime W P hvalue now htop
  refine ⟨parseRetryAfter_bounds _ value now htop, hiff, ?_⟩
  intro n hpos hlt hdecimal
  have hnumber : requestedDelay parseTime value now Provider.parseInt64 = n * 1000000000 ∧
      ¬Misread parseTime value now := requestedDelay_decimal hpos hlt hdecimal
  obtain ⟨hdelay, hread⟩ := hnumber
  have hsame := hiff.mpr hread
  refine ⟨?_, hsame, seconds_exact htop hpos hlt⟩
  rw [hsame, capped_provider_toInt parseTime P hvalue now, hdelay]

section Example

/-- A library that reads nothing. -/
def blindLibrary : Provider.Library where
  parse _ := .error .malformed
  marshal _ := ""
  sum256 _ := Vector.replicate 32 0
  parseTime _ := none
  parseURL _ := none

/-- Two seconds, with a maximum of one and a half. -/
theorem twoSeconds_capped :
    unspaced "2" = true ∧ (0 : Duration) < 1500000000 ∧ Provider.Decimal "2" 2 ∧
      (Webhook.parseRetryAfter { Webhook.plainLibrary with parseTime := fun _ => none } "2" 0
        1500000000).toInt = min 1500000000 (2 * 1000000000) := by
  have hdecimal : Provider.Decimal "2" 2 :=
    ⟨['2'], List.cons_ne_nil _ _, List.forall_mem_singleton.mpr rfl, rfl, by decide⟩
  obtain ⟨-, -, hdecimals⟩ := retryAfters_agree_iff (fun _ => none) Webhook.plainLibrary
    blindLibrary "2" (by decide) 0 1500000000 (by decide)
  exact ⟨by decide, by decide, hdecimal, (hdecimals 2 (by decide) (by decide) hdecimal).1⟩

/-- If a zero were a date, the webhook would wait for it and the provider would not. -/
theorem zeroDate_disagrees :
    unspaced "0" = true ∧ (0 : Duration) < 10 ∧
      (Webhook.parseRetryAfter { Webhook.plainLibrary with parseTime := fun _ => some 5 } "0" 0
        10).toInt = 5 ∧
      (Provider.parseRetryAfter { blindLibrary with parseTime := fun _ => some 5 } "0" 0).toInt =
        0 ∧
      ¬(Webhook.parseRetryAfter { Webhook.plainLibrary with parseTime := fun _ => some 5 } "0" 0
          10).toInt =
        min (10 : Duration).toInt (Provider.parseRetryAfter
          { blindLibrary with parseTime := fun _ => some 5 } "0" 0).toInt := by
  decide +kernel

end Example

end Agreement

section Deliveries

open Prog

/-- The delay that an error asks for is within a limit. -/
def DelayWithin (top : Duration) (outcome : Except DeliveryError Unit) : Prop :=
  ∀ err e, outcome = .error err → err.classified = some e → 0 ≤ e.retryDelay ∧ e.retryDelay ≤ top

variable {L : Webhook.Library} {w : Webhook} {event : Envelope}

theorem delayWithin_ok {top : Duration} : DelayWithin top (.ok ()) := by
  intro err e h
  cases h

theorem delayWithin_context {top : Duration} (err : Provider.ContextError) :
    DelayWithin top (.error (Webhook.contextFailure err)) := by
  intro _ e h hclassified
  cases h
  cases hclassified

/-- An error that was classified has the delay that it was given. -/
theorem delayWithin_classified {top : Duration} {e : NotifyError}
    (h : 0 ≤ e.retryDelay ∧ e.retryDelay ≤ top) :
    DelayWithin top (.error { classified := some e }) := by
  intro _ _ herr hclassified
  cases herr
  cases hclassified
  exact h

theorem delayWithin_noDelay {top : Duration} (htop : 0 < top) {e : NotifyError}
    (h : e.retryDelay = 0) : DelayWithin top (.error { classified := some e }) := by
  apply delayWithin_classified
  rw [h]
  exact ⟨Int64.le_refl _, Int64.le_of_lt htop⟩

theorem concluded_within (hmax : 0 < w.maxRetryAfter) (timestamp : Time)
    (response : Webhook.Response) :
    DelayWithin w.maxRetryAfter (Webhook.concluded L w timestamp response) := by
  have hdelay := parseRetryAfter_bounds L response.retryAfter timestamp hmax
  unfold Webhook.concluded
  dsimp only
  split_ifs
  · exact delayWithin_noDelay hmax rfl
  · exact delayWithin_ok
  · exact delayWithin_classified hdelay
  · exact delayWithin_ok
  · exact delayWithin_noDelay hmax rfl
  · exact delayWithin_classified hdelay
  · exact delayWithin_classified hdelay

theorem post_within (hmax : 0 < w.maxRetryAfter) (body : Bytes) :
    Returns (DelayWithin w.maxRetryAfter) (Webhook.post L w event body) := by
  intro timestamp
  dsimp only [ret_bind]
  split_ifs with hrequestable
  · exact delayWithin_noDelay hmax rfl
  · refine returns_bind (returns_of_forall fun _ => trivial) fun reply _ => ?_
    cases reply with
    | some response => exact concluded_within hmax timestamp response
    | none =>
      intro ctxErr
      cases ctxErr with
      | some err => exact delayWithin_context err
      | none => exact delayWithin_noDelay hmax rfl

theorem deliver_within (hmax : 0 < w.maxRetryAfter) :
    Returns (DelayWithin w.maxRetryAfter) (Webhook.deliver L w event) := by
  intro ctxErr
  cases ctxErr with
  | some err => exact delayWithin_context err
  | none =>
    dsimp only [ret_bind]
    split_ifs with hinvalid
    · exact delayWithin_noDelay hmax rfl
    · refine returns_bind (returns_of_forall fun _ => trivial) fun valid _ => ?_
      cases valid with
      | error err => exact delayWithin_noDelay hmax rfl
      | ok _ =>
        dsimp only
        cases L.marshal event with
        | none => exact delayWithin_noDelay hmax rfl
        | some body => exact post_within hmax body

theorem new_limited {config : Webhook.FactoryConfig} {t : List Webhook.NetEvent}
    (h : Does (Webhook.new L config) t (.ok w)) :
    0 < config.maxRetryAfter ∧ w.maxRetryAfter = config.maxRetryAfter := by
  obtain ⟨endpoint, client, hcheck, -, rfl⟩ := Webhook.new_does h
  unfold Webhook.checkConfig at hcheck
  simp only [ite_error_eq_ok] at hcheck
  exact ⟨Int64.not_le.mp hcheck.2.2.2.2.1, rfl⟩

/-- Whatever a destination answers, the error of a delivery asks for a delay between zero and the
maximum that the notifier was built with. -/
theorem delivery_delay_bounded {config : Webhook.FactoryConfig} {built t : List Webhook.NetEvent}
    (hnew : Does (Webhook.new L config) built (.ok w)) {err : DeliveryError}
    (h : Does (Webhook.deliver L w event) t (.error err)) {e : NotifyError}
    (he : err.classified = some e) :
    0 ≤ e.retryDelay ∧ e.retryDelay ≤ config.maxRetryAfter := by
  obtain ⟨hpositive, hmax⟩ := new_limited hnew
  rw [← hmax] at hpositive ⊢
  exact h.yields.returns (deliver_within hpositive) err e rfl he

section Example

/-- A destination that asks for two minutes. -/
def busy : (op : Webhook.NetOp) → Nat → op.Reply × Nat
  | .exchange _, n => (some { statusCode := 503, retryAfter := "120" }, n)
  | op, n => Webhook.rebinding op n

def busyError : NotifyError :=
  { statusCode := 503, kind := "retryable", retryable := true, retryDelay := 60000000000 }

/-- The notifier waits for the minute that it was built with. -/
theorem busy_delay_bounded :
    ∃ t, Does (Webhook.deliver Webhook.plainLibrary Webhook.plainWebhook Webhook.plainEvent) t
        (.error { classified := some busyError }) ∧
      busyError.retryDelay ≤ Webhook.plainConfig.maxRetryAfter := by
  have hnew : Does (Webhook.new Webhook.plainLibrary Webhook.plainConfig) _
      (.ok Webhook.plainWebhook) :=
    does_trace busy _ 0
  have hdelivery : Does
      (Webhook.deliver Webhook.plainLibrary Webhook.plainWebhook Webhook.plainEvent) _
      (.error { classified := some busyError }) :=
    does_trace busy _ 0
  exact ⟨_, hdelivery, (delivery_delay_bounded hnew hdelivery rfl).2⟩

end Example

end Deliveries

end RuleRaven.Notify
