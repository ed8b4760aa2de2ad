import RuleRaven.Framework.Trace
import RuleRaven.Notify.Backoff
import RuleRaven.Provider.Transport

namespace RuleRaven.Provider

open Framework

namespace RetryPolicy

variable (p : RetryPolicy)

theorem backoffLoop_eq (n : Nat) (delay : Duration) :
    p.backoffLoop n delay = cappedDouble p.maxBackoff n delay := by
  induction n generalizing delay with
  | zero => rfl
  | succ n ih => rw [backoffLoop, cappedDouble, ih]

/-- The end of `backoff`, after the jitter. -/
def clamped (jittered : Duration) : Duration :=
  let delay := if jittered < 0 then 0 else jittered
  if p.maxBackoff < delay then p.maxBackoff else delay

theorem clamped_eq_self {delay : Duration} (hpos : 0 ≤ delay) (hle : delay ≤ p.maxBackoff) :
    p.clamped delay = delay := by
  unfold clamped
  rw [if_neg (Int64.not_lt.mpr hpos)]
  exact if_neg (Int64.not_lt.mpr hle)

/-- Whatever the jitter answers, the backoff is not negative and within its maximum. -/
theorem clamped_bounds (hmax : 0 ≤ p.maxBackoff) (jittered : Duration) :
    0 ≤ p.clamped jittered ∧ p.clamped jittered ≤ p.maxBackoff := by
  unfold clamped
  dsimp only
  split_ifs with hneg hlt hlt
  · exact ⟨hmax, Int64.le_refl _⟩
  · exact ⟨Int64.le_refl _, Int64.not_lt.mp hlt⟩
  · exact ⟨hmax, Int64.le_refl _⟩
  · exact ⟨Int64.not_lt.mp hneg, Int64.not_lt.mp hlt⟩

theorem backoff_eq_clamped (attempt : Int) :
    p.backoff attempt = p.clamped
      ((p.jitter.getD id) (cappedDouble p.maxBackoff (attempt - 1).toNat p.initialBackoff)) := by
  rw [← backoffLoop_eq]
  unfold backoff clamped
  cases p.jitter with
  | none => rfl
  | some jitter => rfl

end RetryPolicy

/-- The two backoffs are the same function: capped, growing, free of overflow, and at most one
nanosecond from the capped power of two. -/
theorem backoffs_agree (initial top : Duration) (hpos : 0 < initial) (hle : initial ≤ top)
    (d : Notify.Dispatcher) (hd : d.initialBackoff = initial ∧ d.maxBackoff = top)
    (p : RetryPolicy) (hp : p.initialBackoff = initial ∧ p.maxBackoff = top ∧ p.jitter = none)
    (n : Int) :
    p.backoff n = d.backoff n ∧
    (d.backoff n = if (doubled top (n - 1).toNat initial).length = (n - 1).toNat then
      (doubled top (n - 1).toNat initial).foldl (fun value _ => value * 2) initial else top) ∧
    (∀ delay ∈ doubled top (n - 1).toNat initial, (delay * 2).toInt = delay.toInt * 2) ∧
    initial ≤ d.backoff n ∧ d.backoff n ≤ top ∧
    (∀ m, n ≤ m → d.backoff n ≤ d.backoff m) ∧
    |(d.backoff n).toInt - min top.toInt (initial.toInt * 2 ^ (n - 1).toNat)| ≤ 1 ∧
    (top.toInt % 2 = 0 →
      (d.backoff n).toInt = min top.toInt (initial.toInt * 2 ^ (n - 1).toNat)) := by
  obtain ⟨hinitial, htop⟩ := hd
  obtain ⟨hpinitial, hptop, hjitter⟩ := hp
  have hback : ∀ m, d.backoff m = cappedDouble top (m - 1).toNat initial := by
    intro m
    rw [d.backoff_eq, hinitial, htop]
  obtain ⟨hlow, hhigh⟩ := cappedDouble_bounds (n - 1).toNat hpos hle
  obtain ⟨hnear, hnear'⟩ := cappedDouble_near (n - 1).toNat hpos hle
  simp only [hback]
  refine ⟨?_, cappedDouble_eq_foldl _ _ _, doubled_exact _ hpos hle, hlow, hhigh, ?_, ?_, ?_⟩
  · rw [p.backoff_eq_clamped, hjitter, hpinitial, hptop]
    apply p.clamped_eq_self
    · exact Int64.le_trans (Int64.le_of_lt hpos) hlow
    · rw [hptop]
      exact hhigh
  · intro m hm
    exact cappedDouble_mono hpos hle (by omega)
  · rw [abs_le]
    omega
  · omega

/-- A dispatcher with an odd maximum, whose half the initial backoff is. -/
def oddCapped : Notify.Dispatcher where
  notifiers := []
  workerID := "w"
  workers := 1
  clusterID := "c"
  leaseDuration := 1
  maxAttempts := 1
  initialBackoff := 3
  maxBackoff := 7
  deliveredExpiry := 1
  failedExpiry := 1
  notifiers_visible := by simp
  notifiers_nodup := List.nodup_nil
  identified := by decide
  positive := by decide
  initialBackoff_le := by decide
  expiries_nonneg := by decide

def oddPolicy : RetryPolicy where
  maxAttempts := 3
  initialBackoff := 3
  maxBackoff := 7
  maxRetryAfter := 0
  totalTimeout := 0

/-- The second delay is the maximum, one nanosecond more than twice the first. -/
theorem oddCapped_backoffs :
    oddPolicy.backoff 2 = oddCapped.backoff 2 ∧ (oddCapped.backoff 2).toInt = 7 ∧
      |(oddCapped.backoff 2).toInt - 6| ≤ 1 := by
  have h := backoffs_agree 3 7 (by decide) (by decide) oddCapped ⟨rfl, rfl⟩ oddPolicy
    ⟨rfl, rfl, rfl⟩ 2
  exact ⟨h.1, by decide, h.2.2.2.2.2.2.1⟩

/-- What `Retry` does to its surroundings: it looks at the context, begins the operation, asks
the jitter for a delay, and sleeps. -/
inductive RetryOp where
  | ctxErr
  | operation (attempt : Int)
  | jitter (delay : Duration)
  | sleep (delay : Duration)

@[reducible] def RetryOp.Reply (α : Type) : RetryOp → Type
  | .ctxErr => Option ContextError
  | .operation _ => Except ProviderError α
  | .jitter _ => Duration
  | .sleep _ => Option ProviderError

abbrev Retrying (α : Type) := Prog RetryOp (RetryOp.Reply α)

/-- One call of `Retry` with what it was answered. -/
abbrev RetryEvent (α : Type) := Sigma (RetryOp.Reply α)

namespace RetryEvent

variable {α : Type}

def looked (err : Option ContextError) : RetryEvent α := ⟨.ctxErr, err⟩

def began (attempt : Int) (outcome : Except ProviderError α) : RetryEvent α :=
  ⟨.operation attempt, outcome⟩

def jittered (delay answer : Duration) : RetryEvent α := ⟨.jitter delay, answer⟩

def slept (delay : Duration) (err : Option ProviderError) : RetryEvent α := ⟨.sleep delay, err⟩

/-- The attempt that an event begins, and how it ended. -/
def invocation : RetryEvent α → Option (Int × Except ProviderError α)
  | ⟨.operation attempt, outcome⟩ => some (attempt, outcome)
  | _ => none

/-- The delay that an event sleeps for, and the sleeper's error. -/
def sleepCall : RetryEvent α → Option (Duration × Option ProviderError)
  | ⟨.sleep delay, err⟩ => some (delay, err)
  | _ => none

/-- A success, an error that is not retryable, or the end of the context. -/
def isFinal : RetryEvent α → Bool
  | ⟨.operation _, .ok _⟩ => true
  | ⟨.operation _, .error err⟩ => !isRetryable err
  | ⟨.ctxErr, some _⟩ => true
  | _ => false

@[simp] theorem invocation_looked (err : Option ContextError) :
    (looked err : RetryEvent α).invocation = none := rfl

@[simp] theorem invocation_began (attempt : Int) (outcome : Except ProviderError α) :
    (began attempt outcome).invocation = some (attempt, outcome) := rfl

@[simp] theorem invocation_jittered (delay answer : Duration) :
    (jittered delay answer : RetryEvent α).invocation = none := rfl

@[simp] theorem invocation_slept (delay : Duration) (err : Option ProviderError) :
    (slept delay err : RetryEvent α).invocation = none := rfl

@[simp] theorem sleepCall_looked (err : Option ContextError) :
    (looked err : RetryEvent α).sleepCall = none := rfl

@[simp] theorem sleepCall_began (attempt : Int) (outcome : Except ProviderError α) :
    (began attempt outcome).sleepCall = none := rfl

@[simp] theorem sleepCall_jittered (delay answer : Duration) :
    (jittered delay answer : RetryEvent α).sleepCall = none := rfl

@[simp] theorem sleepCall_slept (delay : Duration) (err : Option ProviderError) :
    (slept delay err : RetryEvent α).sleepCall = some (delay, err) := rfl

@[simp] theorem isFinal_looked (err : Option ContextError) :
    (looked err : RetryEvent α).isFinal = err.isSome := by cases err <;> rfl

@[simp] theorem isFinal_began_error (attempt : Int) (err : ProviderError) :
    (began attempt (.error err) : RetryEvent α).isFinal = !isRetryable err := rfl

@[simp] theorem isFinal_jittered (delay answer : Duration) :
    (jittered delay answer : RetryEvent α).isFinal = false := rfl

@[simp] theorem isFinal_slept (delay : Duration) (err : Option ProviderError) :
    (slept delay err : RetryEvent α).isFinal = false := rfl

end RetryEvent

open RetryEvent

/-- The attempts of a run, in order. -/
def invocations {α : Type} (t : List (RetryEvent α)) : List (Int × Except ProviderError α) :=
  t.filterMap invocation

section Invocations

variable {α : Type} (t : List (RetryEvent α))

@[simp] theorem invocations_nil : invocations ([] : List (RetryEvent α)) = [] := rfl

@[simp] theorem invocations_append (u : List (RetryEvent α)) :
    invocations (t ++ u) = invocations t ++ invocations u := List.filterMap_append

@[simp] theorem invocations_looked (err : Option ContextError) :
    invocations (looked err :: t) = invocations t := rfl

@[simp] theorem invocations_began (attempt : Int) (outcome : Except ProviderError α) :
    invocations (began attempt outcome :: t) = (attempt, outcome) :: invocations t := rfl

@[simp] theorem invocations_jittered (delay answer : Duration) :
    invocations (jittered delay answer :: t) = invocations t := rfl

@[simp] theorem invocations_slept (delay : Duration) (err : Option ProviderError) :
    invocations (slept delay err :: t) = invocations t := rfl

end Invocations

namespace RetryPolicy

variable {α : Type} (p : RetryPolicy)

/-- `backoff`, with the jitter as a call that may answer anything. -/
def backoffCall (attempt : Int) : Retrying α Duration := do
  let doubled := p.backoffLoop (attempt - 1).toNat p.initialBackoff
  let jittered ←
    if p.jitter.isSome then Prog.perform (RetryOp.jitter doubled) else pure doubled
  pure (p.clamped jittered)

/-- One attempt in the loop of `Retry`, between two looks at the context. -/
def attemptCall (attempt : Int)
    (failed : ProviderError → Retrying α (Option (Int × Except ProviderError α))) :
    Retrying α (Option (Int × Except ProviderError α)) := do
  match ← Prog.perform RetryOp.ctxErr with
  | some err => pure (some (attempt - 1, .error (.context err)))
  | none =>
    match ← Prog.perform (RetryOp.operation attempt) with
    | .ok value => pure (some (attempt, .ok value))
    | .error err =>
      match ← Prog.perform RetryOp.ctxErr with
      | some contextErr => pure (some (attempt, .error (.context contextErr)))
      | none => failed err

/-- The loop of `Retry`, with the number of rounds that its condition still admits, and without
a value where the function panics. -/
def attempts : Nat → Int → Retrying α (Option (Int × Except ProviderError α))
  | 0, _ => pure none
  | left + 1, attempt => attemptCall attempt fun err =>
    if isRetryable err = false ∨ attempt = p.maxAttempts then pure (some (attempt, .error err))
    else do
      let backoff ← p.backoffCall attempt
      match ← Prog.perform (RetryOp.sleep (p.requested err backoff)) with
      | some sleepErr => pure (some (attempt, .error sleepErr))
      | none => attempts left (attempt + 1)

/-- `Retry` of any operation, under any jitter, sleeper and context: they are its calls. -/
def retryCalls : Retrying α (Option (Int × Except ProviderError α)) :=
  match p.validate with
  | .error err => pure (some (0, .error err))
  | .ok () => p.attempts p.maxAttempts.toNat 1

/-- The call that a backoff makes, if any: one to the jitter. -/
inductive Pause : List (RetryEvent α) → Prop
  | plain : Pause []
  | jittered (delay answer : Duration) : Pause [jittered delay answer]

/-- A delay that `Retry` may ask its sleeper for. -/
def Bounded (delay : Duration) : Prop :=
  0 ≤ delay ∧ (0 < p.maxRetryAfter → delay ≤ p.maxBackoff ∨ delay ≤ p.maxRetryAfter)

/-- A round of the loop up to its sleep. -/
def round (attempt : Int) (err : ProviderError) (pause : List (RetryEvent α)) (delay : Duration)
    (sleepErr : Option ProviderError) : List (RetryEvent α) :=
  looked none :: began attempt (.error err) :: looked none :: (pause ++ [slept delay sleepErr])

/-- What the loop can do from an attempt on, told by its exits: the context ended before the
attempt or during it, success, an error that ends it, a sleeper that failed; and another round
after a pause. -/
inductive Course : Int → List (RetryEvent α) → Int × Except ProviderError α → Prop
  | stopped (attempt : Int) (err : ContextError) :
      Course attempt [looked (some err)] (attempt - 1, .error (.context err))
  | succeeded (attempt : Int) (value : α) :
      Course attempt [looked none, began attempt (.ok value)] (attempt, .ok value)
  | ended (attempt : Int) (err : ProviderError) (contextErr : ContextError) :
      Course attempt [looked none, began attempt (.error err), looked (some contextErr)]
        (attempt, .error (.context contextErr))
  | failed (attempt : Int) (err : ProviderError) :
      Course attempt [looked none, began attempt (.error err), looked none] (attempt, .error err)
  | restless (attempt : Int) (err sleepErr : ProviderError) (pause : List (RetryEvent α))
      (delay : Duration) (hretry : isRetryable err = true) (hpause : Pause pause)
      (hdelay : p.Bounded delay) :
      Course attempt (round attempt err pause delay (some sleepErr)) (attempt, .error sleepErr)
  | again (attempt : Int) (err : ProviderError) (pause rest : List (RetryEvent α))
      (delay : Duration) (result : Int × Except ProviderError α)
      (hretry : isRetryable err = true) (hleft : attempt ≠ p.maxAttempts)
      (hpause : Pause pause) (hdelay : p.Bounded delay) (hrest : Course (attempt + 1) rest result) :
      Course attempt (round attempt err pause delay none ++ rest) result

theorem backoffCall_does (hmax : 0 ≤ p.maxBackoff) {attempt : Int} {t : List (RetryEvent α)}
    {delay : Duration} (h : Prog.Does (p.backoffCall attempt) t delay) :
    Pause t ∧ 0 ≤ delay ∧ delay ≤ p.maxBackoff := by
  unfold backoffCall at h
  split_ifs at h with hjitter
  · obtain ⟨answer, rest, rfl, rfl, rfl⟩ := h
    exact ⟨.jittered _ answer, p.clamped_bounds hmax answer⟩
  · obtain ⟨rfl, rfl⟩ := h
    exact ⟨.plain, p.clamped_bounds hmax _⟩

theorem requested_bounded (err : ProviderError) {backoff : Duration} (hpos : 0 ≤ backoff)
    (hle : backoff ≤ p.maxBackoff) : p.Bounded (p.requested err backoff) := by
  have hbackoff : p.Bounded backoff := ⟨hpos, fun _ => .inl hle⟩
  cases err with
  | http e =>
    unfold requested
    dsimp only
    split_ifs with hasked hcap
    · exact ⟨Int64.le_of_lt hcap.1, fun _ => .inr (Int64.le_refl _)⟩
    · refine ⟨Int64.le_of_lt hasked, fun hmax => .inr ?_⟩
      exact Int64.not_lt.mp fun hlt => hcap ⟨hmax, hlt⟩
    · exact hbackoff
  | context e => exact hbackoff
  | questions e => exact hbackoff
  | answers e => exact hbackoff
  | other text => exact hbackoff

/-- Every run of the loop takes one of these courses. In particular it never runs out of rounds:
the last attempt returns. -/
theorem attempts_does (hmax : 0 ≤ p.maxBackoff) {left : Nat} {attempt : Int}
    (hleft : attempt + left = p.maxAttempts + 1) (hsome : 0 < left) {t : List (RetryEvent α)}
    {outcome : Option (Int × Except ProviderError α)}
    (h : Prog.Does (p.attempts left attempt) t outcome) :
    ∃ result, outcome = some result ∧ p.Course attempt t result := by
  induction left generalizing attempt t with
  | zero => cases hsome
  | succ left ih =>
    obtain ⟨look, t, rfl, h⟩ := h
    cases look with
    | some err =>
      obtain ⟨rfl, rfl⟩ := h
      exact ⟨_, rfl, .stopped attempt err⟩
    | none =>
      obtain ⟨result, t, rfl, h⟩ := h
      cases result with
      | ok value =>
        obtain ⟨rfl, rfl⟩ := h
        exact ⟨_, rfl, .succeeded attempt value⟩
      | error err =>
        obtain ⟨look, t, rfl, h⟩ := h
        cases look with
        | some contextErr =>
          obtain ⟨rfl, rfl⟩ := h
          exact ⟨_, rfl, .ended attempt err contextErr⟩
        | none =>
          dsimp only at h
          split_ifs at h with hlast
          · obtain ⟨rfl, rfl⟩ := h
            exact ⟨_, rfl, .failed attempt err⟩
          · obtain ⟨hretry, hmore⟩ := not_or.mp hlast
            have hretry := Bool.eq_true_of_not_eq_false hretry
            change Prog.Does ((p.backoffCall attempt).bind _) t outcome at h
            obtain ⟨pause, t, backoff, rfl, hbackoff, hsleep⟩ := Prog.does_bind.mp h
            obtain ⟨hpause, hpos, hle⟩ := p.backoffCall_does hmax hbackoff
            have hdelay := p.requested_bounded err hpos hle
            obtain ⟨sleep, t, rfl, hrest⟩ := hsleep
            cases sleep with
            | some sleepErr =>
              obtain ⟨rfl, rfl⟩ := hrest
              exact ⟨_, rfl, .restless attempt err sleepErr pause _ hretry hpause hdelay⟩
            | none =>
              have hnext : attempt + 1 + left = p.maxAttempts + 1 := by omega
              obtain ⟨result, rfl, hcourse⟩ := ih hnext (by omega) hrest
              have hround := Course.again attempt err pause t _ result hretry hmore hpause hdelay
                hcourse
              rw [round, List.cons_append, List.cons_append, List.cons_append,
                List.append_assoc] at hround
              exact ⟨result, rfl, hround⟩

/-- After a success, an error that is not retryable or the end of the context, nothing is
begun. -/
def Ends (_ : List (RetryEvent α)) (event : RetryEvent α) (back : List (RetryEvent α)) : Prop :=
  event.isFinal = true → invocations back = []

/-- Right before an attempt, the context was found not to have ended. -/
def Looks (front : List (RetryEvent α)) (event : RetryEvent α) (_ : List (RetryEvent α)) : Prop :=
  event.invocation ≠ none → front.getLast? = some (looked none)

/-- A pause is between two attempts, or after the last one when the sleeper fails or the context
has ended. -/
def Rests (front : List (RetryEvent α)) (event : RetryEvent α) (back : List (RetryEvent α)) :
    Prop :=
  ∀ delay err, event.sleepCall = some (delay, err) → invocations front ≠ [] ∧
    (invocations back ≠ [] ∨ err ≠ none ∨ ∃ contextErr, looked (some contextErr) ∈ back)

theorem Looks.cons (first : RetryEvent α) (front : List (RetryEvent α)) (event : RetryEvent α)
    (back : List (RetryEvent α)) (h : Looks front event back) :
    Looks (first :: front) event back := by
  intro hevent
  rw [List.getLast?_cons, h hevent]
  rfl

theorem Rests.cons (first : RetryEvent α) (front : List (RetryEvent α)) (event : RetryEvent α)
    (back : List (RetryEvent α)) (h : Rests front event back) :
    Rests (first :: front) event back := by
  intro delay err hsleep
  obtain ⟨hfront, hback⟩ := h delay err hsleep
  refine ⟨?_, hback⟩
  change invocations ([first] ++ front) ≠ []
  rw [invocations_append]
  exact List.append_ne_nil_of_right_ne_nil _ hfront

section Round

variable {pause : List (RetryEvent α)} (hpause : Pause pause) (attempt : Int) (err : ProviderError)
  (delay : Duration) (sleepErr : Option ProviderError)

include hpause

theorem invocations_round :
    invocations (round attempt err pause delay sleepErr) = [(attempt, .error err)] := by
  cases hpause <;> rfl

theorem round_sleeps : ∀ event ∈ round attempt err pause delay sleepErr,
    ∀ asked answer, event.sleepCall = some (asked, answer) → asked = delay := by
  cases hpause <;> simp [round, eq_comm]

theorem round_goes_on (hretry : isRetryable err = true) :
    ∀ event ∈ round attempt err pause delay sleepErr, event.isFinal = false := by
  cases hpause <;> simp [round, hretry]

theorem round_looks (rest : List (RetryEvent α)) :
    AtEach (fun front event back => Looks front event (back ++ rest))
      (round attempt err pause delay sleepErr) := by
  cases hpause <;> simp [round, Looks]

/-- The sleep of a round is its last call. -/
theorem round_rests (rest : List (RetryEvent α)) (hrest : invocations rest ≠ [] ∨
      sleepErr ≠ none ∨ ∃ contextErr, looked (some contextErr) ∈ rest) :
    AtEach (fun front event back => Rests front event (back ++ rest))
      (round attempt err pause delay sleepErr) := by
  cases hpause <;> simpa [round, Rests] using hrest

end Round

/-- A run of `Retry` as it is reported: `k` is the number it returns. -/
structure Reported (t : List (RetryEvent α)) (k : Nat) (result : Except ProviderError α) :
    Prop where
  within : (k : Int) ≤ p.maxAttempts
  /-- The operation was begun with the numbers from 1 to `k`. -/
  numbered : (invocations t).map Prod.fst = (List.range k).map fun i : Nat => 1 + (i : Int)
  /-- There is no error exactly if the attempt with the number `k` had none. -/
  succeeds : ∀ value, result = .ok value ↔ (invocations t).getLast? = some ((k : Int), .ok value)
  ends : AtEach Ends t
  looks : AtEach Looks t
  rests : AtEach Rests t
  delays : ∀ event ∈ t, ∀ delay err, event.sleepCall = some (delay, err) → p.Bounded delay

namespace Course

variable {p} {attempt : Int} {t : List (RetryEvent α)} {result : Int × Except ProviderError α}

theorem numbers (h : p.Course attempt t result) (hle : attempt ≤ p.maxAttempts) :
    ∃ k : Nat, result.1 = attempt - 1 + k ∧ result.1 ≤ p.maxAttempts ∧
      (invocations t).map Prod.fst = (List.range k).map fun i : Nat => attempt + (i : Int) := by
  induction h with
  | stopped attempt err => exact ⟨0, by simp, by simp; omega, rfl⟩
  | succeeded attempt value => exact ⟨1, by simp, hle, by simp⟩
  | ended attempt err contextErr => exact ⟨1, by simp, hle, by simp⟩
  | failed attempt err => exact ⟨1, by simp, hle, by simp⟩
  | restless attempt err sleepErr pause delay hretry hpause hdelay =>
    exact ⟨1, by simp, hle, by simp [invocations_round hpause]⟩
  | again attempt err pause rest delay result hretry hleft hpause hdelay hrest ih =>
    obtain ⟨k, hk, hmax, hnumbers⟩ := ih (by omega)
    have hshift : (fun i : Nat => attempt + 1 + (i : Int)) =
        (fun i : Nat => attempt + (i : Int)) ∘ Nat.succ := by
      funext i
      simp only [Function.comp_apply, Nat.succ_eq_add_one]
      push_cast
      ring
    refine ⟨k + 1, by push_cast; omega, hmax, ?_⟩
    rw [hshift] at hnumbers
    simp [invocations_round hpause, List.range_succ_eq_map, hnumbers]

/-- The last attempt of the loop decides on success. -/
theorem succeeds (h : p.Course attempt t result) (value : α) :
    result.2 = .ok value ↔ (invocations t).getLast? = some (result.1, .ok value) := by
  induction h with
  | stopped attempt err => simp
  | succeeded attempt value => simp
  | ended attempt err contextErr => simp
  | failed attempt err => simp
  | restless attempt err sleepErr pause delay hretry hpause hdelay =>
    simp [invocations_round hpause]
  | again attempt err pause rest delay result hretry hleft hpause hdelay hrest ih =>
    rw [ih, invocations_append, invocations_round hpause]
    cases invocations rest with
    | nil => simp
    | cons first others => rw [List.singleton_append, List.getLast?_cons_cons]

theorem ends (h : p.Course attempt t result) : AtEach Ends t := by
  induction h with
  | stopped attempt err => simp [Ends]
  | succeeded attempt value => simp [Ends]
  | ended attempt err contextErr => simp [Ends]
  | failed attempt err => simp [Ends]
  | restless attempt err sleepErr pause delay hretry hpause hdelay =>
    intro front event back hsplit hfinal
    have hmem : event ∈ round attempt err pause delay (some sleepErr) := by simp [hsplit]
    rw [round_goes_on hpause attempt err delay _ hretry event hmem] at hfinal
    cases hfinal
  | again attempt err pause rest delay result hretry hleft hpause hdelay hrest ih =>
    apply AtEach.append (fun _ _ _ _ h => h) _ ih
    intro front event back hsplit hfinal
    have hmem : event ∈ round attempt err pause delay none := by simp [hsplit]
    rw [round_goes_on hpause attempt err delay _ hretry event hmem] at hfinal
    cases hfinal

theorem looks (h : p.Course attempt t result) : AtEach Looks t := by
  induction h with
  | stopped attempt err => simp [Looks]
  | succeeded attempt value => simp [Looks]
  | ended attempt err contextErr => simp [Looks]
  | failed attempt err => simp [Looks]
  | restless attempt err sleepErr pause delay hretry hpause hdelay =>
    have h := round_looks hpause attempt err delay (some sleepErr) []
    simpa only [List.append_nil] using h
  | again attempt err pause rest delay result hretry hleft hpause hdelay hrest ih =>
    exact AtEach.append Looks.cons (round_looks hpause attempt err delay none rest) ih

/-- The loop begins with an attempt, or finds the context ended. -/
theorem starts (h : p.Course attempt t result) :
    invocations t ≠ [] ∨ ∃ contextErr, looked (some contextErr) ∈ t := by
  cases h with
  | stopped _ contextErr => exact .inr ⟨contextErr, List.mem_singleton_self _⟩
  | succeeded => exact .inl (by simp)
  | ended => exact .inl (by simp)
  | failed => exact .inl (by simp)
  | restless _ _ _ _ _ _ hpause => exact .inl (by simp [invocations_round hpause])
  | again _ _ _ _ _ _ _ _ hpause => exact .inl (by simp [invocations_round hpause])

theorem rests (h : p.Course attempt t result) : AtEach Rests t := by
  induction h with
  | stopped attempt err => simp [Rests]
  | succeeded attempt value => simp [Rests]
  | ended attempt err contextErr => simp [Rests]
  | failed attempt err => simp [Rests]
  | restless attempt err sleepErr pause delay hretry hpause hdelay =>
    have h := round_rests hpause attempt err delay (some sleepErr) []
      (.inr (.inl (Option.some_ne_none _)))
    simpa only [List.append_nil] using h
  | again attempt err pause rest delay result hretry hleft hpause hdelay hrest ih =>
    have hround := round_rests hpause attempt err delay none rest
      (hrest.starts.imp_right Or.inr)
    exact AtEach.append Rests.cons hround ih

theorem delays (h : p.Course attempt t result) :
    ∀ event ∈ t, ∀ delay err, event.sleepCall = some (delay, err) → p.Bounded delay := by
  induction h with
  | stopped attempt err => simp
  | succeeded attempt value => simp
  | ended attempt err contextErr => simp
  | failed attempt err => simp
  | restless attempt err sleepErr pause delay hretry hpause hdelay =>
    intro event hevent asked answer hsleep
    rwa [round_sleeps hpause attempt err delay _ event hevent asked answer hsleep]
  | again attempt err pause rest delay result hretry hleft hpause hdelay hrest ih =>
    intro event hevent asked answer hsleep
    rcases List.mem_append.mp hevent with hround | hlater
    · rwa [round_sleeps hpause attempt err delay _ event hround asked answer hsleep]
    · exact ih event hlater asked answer hsleep

end Course

theorem validate_ok (h : p.validate = .ok ()) : 0 < p.maxAttempts ∧ 0 ≤ p.maxBackoff := by
  unfold validate at h
  split_ifs at h with hattempts hinitial hmax hafter htotal
  have hpos := Int64.not_le.mp hinitial
  exact ⟨not_le.mp hattempts, Int64.le_trans (Int64.le_of_lt hpos) (Int64.not_lt.mp hmax)⟩

end RetryPolicy

/-- `Retry` runs the operation exactly as it reports, and does not panic. -/
theorem retry_reported {α : Type} (p : RetryPolicy) (hp : p.validate = .ok ())
    (t : List (RetryEvent α)) (outcome : Option (Int × Except ProviderError α))
    (h : Prog.Does p.retryCalls t outcome) :
    ∃ (k : Nat) (result : Except ProviderError α),
      outcome = some ((k : Int), result) ∧ p.Reported t k result := by
  obtain ⟨hpos, hmax⟩ := p.validate_ok hp
  unfold RetryPolicy.retryCalls at h
  rw [hp] at h
  obtain ⟨⟨number, result⟩, rfl, hcourse⟩ := p.attempts_does hmax (by omega) (by omega) h
  obtain ⟨k, hk, hwithin, hnumbers⟩ := hcourse.numbers (by omega)
  have hsucceeds := hcourse.succeeds
  dsimp only at hk hwithin hsucceeds
  have hnumber : number = k := by omega
  subst hnumber
  exact ⟨k, result, rfl, hwithin, hnumbers, hsucceeds, hcourse.ends, hcourse.looks,
    hcourse.rests, hcourse.delays⟩

/-- Two attempts, with a jitter in between. -/
def twoTries : RetryPolicy where
  maxAttempts := 2
  initialBackoff := 3
  maxBackoff := 7
  maxRetryAfter := 5
  totalTimeout := 0
  jitter := some id

/-- The first attempt fails and asks for more time than the policy grants, the second one
succeeds. -/
def secondTry : List (RetryEvent Unit) :=
  [looked none, began 1 (.error (newHTTPError "evaluate" 503 9)), looked none, jittered 3 (-1),
    slept 5 none, looked none, began 2 (.ok ())]

theorem secondTry_reported : Prog.Does twoTries.retryCalls secondTry (some (2, .ok ())) ∧
    ∃ (k : Nat) (result : Except ProviderError Unit),
      some ((2 : Int), Except.ok ()) = some ((k : Int), result) ∧
        twoTries.Reported secondTry k result := by
  have hdoes : Prog.Does twoTries.retryCalls secondTry (some (2, .ok ())) :=
    ⟨none, _, rfl, .error (newHTTPError "evaluate" 503 9), _, rfl, none, _, rfl, -1, _, rfl,
      none, _, rfl, none, _, rfl, .ok (), _, rfl, rfl, rfl⟩
  exact ⟨hdoes, retry_reported twoTries rfl secondTry _ hdoes⟩

namespace RetryPolicy

variable {α : Type} (p : RetryPolicy)

/-- The calls of `Retry` as the clients serve them. -/
def serve (operation : Int → Web (Except ProviderError α)) : (op : RetryOp) → Web (op.Reply α)
  | .ctxErr => Web.ctxErr
  | .operation attempt => operation attempt
  | .jitter delay => pure ((p.jitter.getD id) delay)
  | .sleep delay => Web.sleep delay

theorem interpret_backoffCall (operation : Int → Web (Except ProviderError α)) (attempt : Int) :
    Prog.interpret (p.serve operation) (p.backoffCall attempt) = .ret (p.backoff attempt) := by
  rw [backoff_eq_clamped, ← backoffLoop_eq]
  unfold backoffCall
  cases hjitter : p.jitter with
  | none => rfl
  | some jitter =>
    simp only [Option.isSome_some, if_true, Prog.bind_eq_bind, Prog.perform_bind,
      Prog.interpret_call, serve, hjitter]
    rfl

theorem interpret_attemptCall (operation : Int → Web (Except ProviderError α)) (attempt : Int)
    {failed : ProviderError → Retrying α (Option (Int × Except ProviderError α))}
    {failed' : ProviderError → Web (Int × Except ProviderError α)}
    (hfailed : ∀ err, Prog.interpret (p.serve operation) (failed err) =
      (failed' err).bind fun result => .ret (some result)) :
    Prog.interpret (p.serve operation) (attemptCall attempt failed) =
      (attemptOnce operation attempt failed').bind fun result => .ret (some result) := by
  apply congrArg (Prog.call WebOp.ctxErr)
  funext look
  cases look with
  | some err => rfl
  | none =>
    change (operation attempt).bind _ = ((operation attempt).bind _).bind _
    rw [Prog.bind_assoc]
    congr 1
    funext outcome
    cases outcome with
    | ok value => rfl
    | error err =>
      apply congrArg (Prog.call WebOp.ctxErr)
      funext look
      cases look with
      | some contextErr => rfl
      | none => exact hfailed err

/-- The same for its loop, from any attempt on. -/
theorem interpret_attempts (operation : Int → Web (Except ProviderError α)) (left : Nat)
    (attempt : Int) (hleft : attempt + left = p.maxAttempts) :
    Prog.interpret (p.serve operation) (p.attempts (left + 1) attempt) =
      (p.retryLoop operation left attempt).bind fun result => .ret (some result) := by
  induction left generalizing attempt with
  | zero =>
    apply p.interpret_attemptCall
    intro err
    rw [if_pos (.inr (by simpa using hleft))]
    rfl
  | succ left ih =>
    apply p.interpret_attemptCall
    intro err
    cases hretry : isRetryable err with
    | false => rfl
    | true =>
      have hmore : ¬(true = false ∨ attempt = p.maxAttempts) := by
        rintro (h | h)
        · cases h
        · omega
      rw [if_neg hmore, Prog.bind_eq_bind, Prog.interpret_bind, interpret_backoffCall,
        delayAfter]
      apply congrArg (Prog.call (WebOp.sleep (p.requested err (p.backoff attempt))))
      funext sleepErr
      cases sleepErr with
      | some sleepErr => rfl
      | none => exact ih (attempt + 1) (by omega)

/-- The clients' `Retry` is this function, with its calls served by them. -/
theorem interpret_retryCalls (operation : Int → Web (Except ProviderError α)) :
    Prog.interpret (p.serve operation) p.retryCalls =
      (p.retry operation).bind fun result => .ret (some result) := by
  unfold retryCalls retry
  cases hvalid : p.validate with
  | error err => rfl
  | ok =>
    have hpos := (p.validate_ok hvalid).1
    have hcount : p.maxAttempts.toNat = p.maxAttempts.toNat - 1 + 1 := by omega
    dsimp only
    rw [hcount]
    exact p.interpret_attempts operation _ 1 (by omega)

end RetryPolicy

end RuleRaven.Provider
