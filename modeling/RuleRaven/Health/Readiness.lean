import RuleRaven.Framework.CompareAndSwap
import Mathlib.Data.List.Basic

namespace RuleRaven.Health

open Framework

/-- What has to be done before the process is ready. -/
inductive Check where
  | configValidated
  | mongoReady
  | informersSynced
  deriving DecidableEq

namespace Check

/-- The position of a constant in its group, `iota`. -/
def iota : Check → Nat
  | .configValidated => 0
  | .mongoReady => 1
  | .informersSynced => 2

def bit (check : Check) : BitVec 32 := BitVec.twoPow 32 check.iota

theorem iota_lt (check : Check) : check.iota < 3 := by cases check <;> decide

theorem iota_injective {check other : Check} (h : check.iota = other.iota) : check = other := by
  revert h
  cases check <;> cases other <;> decide

end Check

def allStartupChecks : BitVec 32 :=
  Check.configValidated.bit ||| Check.mongoReady.bit ||| Check.informersSynced.bit

/-- `Ready`, of a `Readiness` that is there. -/
def ready (checks : BitVec 32) : Bool := checks &&& allStartupChecks == allStartupChecks

def mark (check : Check) (current : BitVec 32) : BitVec 32 := current ||| check.bit

/-- Every interleaving of the loops of `mark`. -/
def Marks : Cell (BitVec 32) Check × List (Updater (BitVec 32) Check) →
    Cell (BitVec 32) Check × List (Updater (BitVec 32) Check) → Prop :=
  Relation.ReflTransGen (Updater.Step mark)

/-- The answer to a request. -/
structure Response where
  status : Nat
  header : List (String × String)
  body : String
  deriving DecidableEq

/-- `http.Error`. -/
def httpError (text : String) (status : Nat) (header : List (String × String)) : Response where
  status := status
  header := header ++ [("Content-Type", "text/plain; charset=utf-8"),
    ("X-Content-Type-Options", "nosniff")]
  body := text ++ "\n"

def methodNotAllowed : Response := httpError "Method Not Allowed" 405 [("Allow", "GET")]

def ok : Response := ⟨200, [("Content-Type", "text/plain; charset=utf-8")], "ok\n"⟩

/-- The handler of `/healthz`. -/
def healthz (method : String) : Response := if method ≠ "GET" then methodNotAllowed else ok

/-- The handler of `/readyz`, with the `Readiness` it was given, if any. -/
def readyz (readiness : Option (BitVec 32)) (method : String) : Response :=
  if method ≠ "GET" then methodNotAllowed
  else if !readiness.any ready then httpError "not ready" 503 []
  else ok

section Bits

theorem getLsbD_bit (check : Check) (i : Nat) : check.bit.getLsbD i = decide (i = check.iota) := by
  have hlt := check.iota_lt
  rw [Check.bit, BitVec.getLsbD_twoPow]
  by_cases hi : i = check.iota
  · subst hi
    simp only [decide_true, Bool.and_true, decide_eq_true_eq]
    omega
  · simp [hi, Ne.symm hi]

theorem getLsbD_allStartupChecks (i : Nat) : allStartupChecks.getLsbD i = decide (i < 3) := by
  simp only [allStartupChecks, BitVec.getLsbD_or, getLsbD_bit, Check.iota]
  by_cases hi : i < 3
  · have : i = 0 ∨ i = 1 ∨ i = 2 := by omega
    rcases this with rfl | rfl | rfl <;> rfl
  · have h0 : i ≠ 0 := by omega
    have h1 : i ≠ 1 := by omega
    have h2 : i ≠ 2 := by omega
    simp [hi, h0, h1, h2]

/-- All three bits are set. -/
theorem ready_iff (checks : BitVec 32) :
    ready checks = true ↔ ∀ check : Check, checks.getLsbD check.iota = true := by
  rw [ready, beq_iff_eq]
  constructor
  · intro h check
    have hbit := congrArg (fun w => w.getLsbD check.iota) h
    simp only [BitVec.getLsbD_and, getLsbD_allStartupChecks, check.iota_lt, decide_true,
      Bool.and_true] at hbit
    exact hbit
  · intro h
    refine BitVec.eq_of_getLsbD_eq fun i _ => ?_
    rw [BitVec.getLsbD_and, getLsbD_allStartupChecks]
    by_cases hi : i < 3
    · have hcheck : ∃ check : Check, check.iota = i := by
        have : i = 0 ∨ i = 1 ∨ i = 2 := by omega
        rcases this with rfl | rfl | rfl
        · exact ⟨.configValidated, rfl⟩
        · exact ⟨.mongoReady, rfl⟩
        · exact ⟨.informersSynced, rfl⟩
      obtain ⟨check, rfl⟩ := hcheck
      simp [hi, h check]
    · simp [hi]

/-- The marks that were made are the bits that are set. -/
theorem getLsbD_marked (log : List Check) (check : Check) (w : BitVec 32) :
    (log.foldl (fun w u => mark u w) w).getLsbD check.iota =
      (w.getLsbD check.iota || decide (check ∈ log)) := by
  induction log generalizing w with
  | nil => simp
  | cons first log ih =>
    rw [List.foldl_cons, ih, mark, BitVec.getLsbD_or, getLsbD_bit]
    by_cases hfirst : check = first
    · subst hfirst
      simp
    · have hiota : check.iota ≠ first.iota := fun h => hfirst (Check.iota_injective h)
      simp [hfirst, hiota]

theorem ready_marked (log : List Check) :
    ready (log.foldl (fun w u => mark u w) 0#32) = true ↔ ∀ check : Check, check ∈ log := by
  simp only [ready_iff, getLsbD_marked, BitVec.getLsbD_zero, Bool.false_or, decide_eq_true_eq]

end Bits

variable {checks : List Check} {c : Cell (BitVec 32) Check × List (Updater (BitVec 32) Check)}

/-- The probe succeeds exactly when each of the three marks has been made, however the loops that
make them interleave; and all of them come to an end, at which all their marks are made. -/
theorem readyz_marked (hrun : Marks (⟨0#32, []⟩, checks.map Updater.loading) c) (method : String) :
    ((readyz (some c.1.value) method).status = 200 ↔
      method = "GET" ∧ ∀ check : Check, check ∈ c.2.filterMap Updater.done) ∧
    Acc (fun after before => Updater.Step mark before after) c ∧
    ((∀ after, ¬Updater.Step mark c after) → c.2.filterMap Updater.done = checks) := by
  refine ⟨?_, Updater.step_acc c, Updater.done_of_stuck hrun⟩
  have hserial := Updater.serial hrun
  have hready : ready c.1.value = true ↔ ∀ check : Check, check ∈ c.2.filterMap Updater.done := by
    rw [hserial.value, ready_marked]
    exact forall_congr' fun check => hserial.log.mem_iff
  rw [← hready]
  by_cases hmethod : method = "GET"
  · subst hmethod
    cases hvalue : ready c.1.value with
    | true => simp [readyz, hvalue, ok]
    | false => simp [readyz, hvalue, httpError]
  · simp [readyz, hmethod, methodNotAllowed, httpError]

/-- Two marks at once: the second swap fails, and is made again. -/
theorem readyz_marked_raced :
    ∃ c, Marks (⟨0#32, []⟩, [Check.configValidated, .mongoReady].map Updater.loading) c ∧
      c.2.filterMap Updater.done = [.configValidated, .mongoReady] ∧
      (readyz (some c.1.value) "GET").status ≠ 200 := by
  have hloads : Marks (⟨0#32, []⟩, [Check.configValidated, .mongoReady].map Updater.loading) _ :=
    .tail (.tail .refl (.move [] [.loading .mongoReady] (.load _ Check.configValidated)))
      (.move [.swapping .configValidated 0#32] [] (.load _ Check.mongoReady))
  have hraced := hloads.tail (.move [] [.swapping .mongoReady 0#32] (.swap _ Check.configValidated))
  have hmissed := hraced.tail (.move [.updated .configValidated] []
    (.miss (u := Check.mongoReady) (by decide)))
  have hagain := hmissed.tail (.move [.updated .configValidated] [] (.load _ Check.mongoReady))
  have hrun := hagain.tail (.move [.updated .configValidated] [] (.swap _ Check.mongoReady))
  refine ⟨_, hrun, rfl, ?_⟩
  rw [Ne, (readyz_marked hrun "GET").1]
  rintro ⟨-, hall⟩
  exact absurd (hall .informersSynced) (by decide)

end RuleRaven.Health
