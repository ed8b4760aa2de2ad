import RuleRaven.Basic
import Mathlib.Logic.Relation
import Mathlib.Order.WellFounded

namespace RuleRaven

/-- How many runners and closers there are; they go by their positions. -/
structure App where
  runners : Nat
  closers : Nat
  shutdownTimeout : Duration
  shutdownTimeout_pos : 0 < shutdownTimeout

namespace App

/-- `New`. No runner or closer is nil here. -/
def new (runners closers : Nat) (shutdownTimeout : Duration) : Except Err App :=
  if h : 0 < shutdownTimeout then .ok ⟨runners, closers, shutdownTimeout, h⟩
  else .error ⟨"application shutdown timeout must be positive", none⟩

/-- What ends a context. -/
inductive ContextErr where
  | canceled
  | deadlineExceeded
  deriving DecidableEq

/-- An error of a runner or a closer: its text, and what of the context `errors.Is` finds in
it. -/
structure RunError where
  text : String
  wraps : List ContextErr := []
  deriving DecidableEq

def normalizeRunnerError (parent : Option ContextErr) : Option RunError → Option RunError
  | none => none
  | some err =>
    if parent.any (· ∈ err.wraps) || .canceled ∈ err.wraps then none else some err

/-- What `Run` joins to its error: what a runner returned, that runners did not stop within the
timeout, or that a resource could not be closed. -/
inductive Fault where
  | runner (err : RunError)
  | unstopped (timeout : Duration)
  | close (err : RunError)
  deriving DecidableEq

/-- Where `Run` stands: before the first result, after it has cancelled the runners, at its
closers, of which some are left, in a call of the closer that comes after those, or at its
end. -/
inductive Stage where
  | waiting
  | stopping
  | closing (left : Nat)
  | calling (left : Nat)
  | returned
  deriving DecidableEq

/-- What `Run` and its runners share. The runners that have not returned are listed, and the
results that were sent and not received yet. The last three fields are a record that no step
reads. -/
structure Course where
  stage : Stage := .waiting
  parent : Option ContextErr := none
  clock : Time
  cancelledAt : Option Time := none
  running : List Nat
  results : List (Option RunError) := []
  remaining : Nat
  runErr : List Fault := []
  received : List (Option RunError) := []
  timedOut : Bool := false
  closings : List (Nat × Option RunError) := []

/-- The start of `Run`. -/
def begin (a : App) (t : Time) : Course where
  clock := t
  running := List.range a.runners
  remaining := a.runners

namespace Course

/-- The context of the runners is over. -/
def ended (c : Course) : Bool := c.parent.isSome || c.cancelledAt.isSome

/-- A result is received. Only the first error is kept. -/
def receive (c : Course) (err : Option RunError) (rest : List (Option RunError)) : Course :=
  { c with
    results := rest
    remaining := c.remaining - 1
    received := c.received ++ [normalizeRunnerError c.parent err]
    runErr :=
      if c.runErr = [] then ((normalizeRunnerError c.parent err).map Fault.runner).toList
      else c.runErr }

/-- The runners are cancelled, and the timer starts. -/
def cancel (c : Course) : Course := { c with stage := .stopping, cancelledAt := some c.clock }

end Course

/-- What happens beside `Run`: its context ends, the clock runs, a runner returns and sends its
result, if the channel has room for it, and the closer that was called returns. -/
inductive Around (a : App) : Course → Course → Prop
  | ends {c : Course} (cause : ContextErr) (h : c.parent = none) :
      Around a c { c with parent := some cause }
  | passes {c : Course} {t : Time} (h : c.clock ≤ t) : Around a c { c with clock := t }
  | returns {c : Course} {i : Nat} (err : Option RunError) (h : i ∈ c.running)
      (hroom : c.results.length < a.runners) :
      Around a c { c with running := c.running.erase i, results := c.results ++ [err] }
  | closed {c : Course} {left : Nat} (err : Option RunError) (h : c.stage = .calling left) :
      Around a c
        { c with
          stage := .closing left
          closings := c.closings ++ [(left, err)]
          runErr := c.runErr ++ (err.map Fault.close).toList }

/-- The steps of `Run` itself. -/
inductive Advances (a : App) : Course → Course → Prop
  | idle {c : Course} (h : c.stage = .waiting) (hnone : c.remaining = 0) : Advances a c c.cancel
  | first {c : Course} {err : Option RunError} {rest : List (Option RunError)}
      (h : c.stage = .waiting) (hresults : c.results = err :: rest) :
      Advances a c (c.receive err rest).cancel
  | ended {c : Course} (h : c.stage = .waiting) (hparent : c.parent.isSome = true) :
      Advances a c c.cancel
  | received {c : Course} {err : Option RunError} {rest : List (Option RunError)}
      (h : c.stage = .stopping) (hremaining : 0 < c.remaining)
      (hresults : c.results = err :: rest) :
      Advances a c (c.receive err rest)
  | timeout {c : Course} {t : Time} (h : c.stage = .stopping) (hremaining : 0 < c.remaining)
      (hcancelled : c.cancelledAt = some t) (hlate : t + a.shutdownTimeout.toInt ≤ c.clock) :
      Advances a c
        { c with
          remaining := 0
          timedOut := true
          runErr := c.runErr ++ [.unstopped a.shutdownTimeout] }
  | stopped {c : Course} (h : c.stage = .stopping) (hremaining : c.remaining = 0) :
      Advances a c { c with stage := .closing a.closers }
  | close {c : Course} {left : Nat} (h : c.stage = .closing (left + 1)) :
      Advances a c { c with stage := .calling left }
  | done {c : Course} (h : c.stage = .closing 0) : Advances a c { c with stage := .returned }

/-- One step of any interleaving. -/
def AppStep (a : App) (c c' : Course) : Prop := Around a c c' ∨ Advances a c c'

def AppRuns (a : App) : Course → Course → Prop := Relation.ReflTransGen (AppStep a)

/-- The first error among what was received. -/
def firstFault (received : List (Option RunError)) : List Fault :=
  ((received.filterMap id).head?.map Fault.runner).toList

theorem firstFault_snoc (received : List (Option RunError)) (result : Option RunError) :
    firstFault (received ++ [result]) =
      if firstFault received = [] then (result.map Fault.runner).toList
      else firstFault received := by
  unfold firstFault
  rw [List.filterMap_append]
  cases received.filterMap id with
  | nil => cases result <;> rfl
  | cons err rest => rfl

/-- What each stage of `Run` stands for. -/
def Course.Fits (a : App) (c : Course) : Prop :=
  match c.stage with
  | .waiting => c.cancelledAt = none ∧ c.timedOut = false ∧ c.received = [] ∧ c.closings = []
  | .stopping => c.cancelledAt.isSome = true ∧ c.closings = []
  | .closing left => c.remaining = 0 ∧ c.cancelledAt.isSome = true ∧ left ≤ a.closers ∧
      c.closings.map Prod.fst = (List.range' left (a.closers - left)).reverse
  | .calling left => c.remaining = 0 ∧ c.cancelledAt.isSome = true ∧ left < a.closers ∧
      c.closings.map Prod.fst = (List.range' (left + 1) (a.closers - (left + 1))).reverse
  | .returned => c.remaining = 0 ∧ c.cancelledAt.isSome = true ∧
      c.closings.map Prod.fst = (List.range a.closers).reverse

/-- Every result is on its way, in the channel or received; the error holds what the record
tells; and the timeout was over when it struck. -/
structure Kept (a : App) (c : Course) : Prop where
  counted : c.running.length + c.results.length + c.received.length = a.runners
  remaining : c.remaining = if c.timedOut then 0 else c.running.length + c.results.length
  late : c.timedOut = true →
    ∃ t, c.cancelledAt = some t ∧ t + a.shutdownTimeout.toInt ≤ c.clock
  told : c.runErr = firstFault c.received ++
    (if c.timedOut then [.unstopped a.shutdownTimeout] else []) ++
      c.closings.filterMap fun closing => closing.2.map Fault.close
  fits : c.Fits a

section Kept

variable {a : App} {c c' : Course}

theorem kept_begin (a : App) (t : Time) : Kept a (a.begin t) where
  counted := by simp [App.begin]
  remaining := by simp [App.begin]
  late h := by cases h
  told := rfl
  fits := ⟨rfl, rfl, rfl, rfl⟩

/-- A stage looks at nothing that changes on its own. -/
theorem Course.Fits.frame (h : c.Fits a) (hstage : c'.stage = c.stage)
    (hremaining : c'.remaining = c.remaining) (hcancelled : c'.cancelledAt = c.cancelledAt)
    (htimedOut : c'.timedOut = c.timedOut) (hreceived : c'.received = c.received)
    (hclosings : c'.closings = c.closings) : c'.Fits a := by
  unfold Course.Fits at h ⊢
  rw [hstage, hremaining, hcancelled, htimedOut, hreceived, hclosings]
  exact h

theorem Kept.around (hc : Kept a c) (h : Around a c c') : Kept a c' := by
  cases h with
  | ends cause h =>
    have hfits := hc.fits.frame rfl rfl rfl rfl rfl rfl
    exact ⟨hc.counted, hc.remaining, hc.late, hc.told, hfits⟩
  | passes h =>
    have hfits := hc.fits.frame rfl rfl rfl rfl rfl rfl
    refine ⟨hc.counted, hc.remaining, fun hout => ?_, hc.told, hfits⟩
    obtain ⟨t, ht, hlate⟩ := hc.late hout
    exact ⟨t, ht, hlate.trans h⟩
  | @returns i err h hroom =>
    have hlength : (c.running.erase i).length + 1 = c.running.length := by
      rw [List.length_erase_of_mem h]
      exact Nat.sub_add_cancel (List.length_pos_of_mem h)
    refine ⟨?_, ?_, hc.late, hc.told, hc.fits.frame rfl rfl rfl rfl rfl rfl⟩
    · have hcounted := hc.counted
      simp only [List.length_append, List.length_singleton]
      omega
    · rw [hc.remaining]
      simp only [List.length_append, List.length_singleton]
      split_ifs <;> omega
  | @closed left err h =>
    have hfits := hc.fits
    unfold Course.Fits at hfits
    rw [h] at hfits
    obtain ⟨hremaining, hcancelled, hlt, hclosings⟩ := hfits
    refine ⟨hc.counted, hc.remaining, hc.late, ?_, hremaining, hcancelled, hlt.le, ?_⟩
    · simp only [hc.told, List.filterMap_append, List.append_assoc]
      cases err <;> rfl
    · have hleft : a.closers - left = (a.closers - (left + 1)) + 1 := by omega
      rw [List.map_append, hclosings, hleft, List.range'_succ, List.reverse_cons]
      rfl

theorem Kept.cancel (hc : Kept a c) (h : c.stage = .waiting) : Kept a c.cancel := by
  have hfits := hc.fits
  unfold Course.Fits at hfits
  rw [h] at hfits
  obtain ⟨-, htimedOut, -, hclosings⟩ := hfits
  refine ⟨hc.counted, hc.remaining, fun hout => ?_, hc.told, rfl, hclosings⟩
  rw [Course.cancel, htimedOut] at hout
  cases hout

/-- After the timeout no result is waited for. -/
theorem Kept.live (hc : Kept a c) (h : 0 < c.remaining) : c.timedOut = false := by
  cases hout : c.timedOut with
  | false => rfl
  | true =>
    rw [hc.remaining, hout] at h
    exact absurd h (lt_irrefl 0)

/-- What is received was in the channel. -/
theorem Kept.receive (hc : Kept a c) (h : c.stage = .stopping) (hremaining : 0 < c.remaining)
    {err : Option RunError} {rest : List (Option RunError)} (hresults : c.results = err :: rest) :
    Kept a (c.receive err rest) := by
  have htimedOut := hc.live hremaining
  have hfits := hc.fits
  unfold Course.Fits at hfits
  rw [h] at hfits
  have hcounted := hc.counted
  have hleft := hc.remaining
  have htold := hc.told
  rw [hresults, List.length_cons] at hcounted hleft
  rw [htimedOut] at hleft
  rw [htimedOut, hfits.2] at htold
  simp only [Bool.false_eq_true, if_false, List.append_nil, List.filterMap_nil] at hleft htold
  refine ⟨?_, ?_, fun hout => ?_, ?_, ?_⟩
  · simp only [Course.receive, List.length_append, List.length_singleton]
    omega
  · simp only [Course.receive, htimedOut, Bool.false_eq_true, if_false]
    omega
  · rw [Course.receive, htimedOut] at hout
    cases hout
  · simp only [Course.receive, htimedOut, hfits.2, htold, firstFault_snoc, Bool.false_eq_true,
      if_false, List.append_nil, List.filterMap_nil]
  · simp only [Course.Fits, Course.receive, h]
    exact hfits

theorem Kept.advances (hc : Kept a c) (h : Advances a c c') : Kept a c' := by
  have hfits := hc.fits
  unfold Course.Fits at hfits
  cases h with
  | idle h hnone => exact hc.cancel h
  | ended h hparent => exact hc.cancel h
  | first h hresults =>
    rw [h] at hfits
    have hremaining : 0 < c.remaining := by
      rw [hc.remaining, hfits.2.1, hresults]
      exact Nat.add_pos_right _ (Nat.succ_pos _)
    exact (hc.cancel h).receive rfl hremaining hresults
  | received h hremaining hresults => exact hc.receive h hremaining hresults
  | @timeout t h hremaining hcancelled hlate =>
    rw [h] at hfits
    refine ⟨hc.counted, rfl, fun _ => ⟨t, hcancelled, hlate⟩, ?_, ?_⟩
    · have htold := hc.told
      rw [hc.live hremaining, hfits.2] at htold
      simp only [Bool.false_eq_true, if_false, List.append_nil, List.filterMap_nil] at htold
      simp only [htold, hfits.2, if_true, List.filterMap_nil, List.append_nil]
    · simp only [Course.Fits, h]
      exact hfits
  | stopped h hremaining =>
    rw [h] at hfits
    refine ⟨hc.counted, hc.remaining, hc.late, hc.told, hremaining, hfits.1, le_rfl, ?_⟩
    simp [hfits.2]
  | close h =>
    rw [h] at hfits
    exact ⟨hc.counted, hc.remaining, hc.late, hc.told, hfits.1, hfits.2.1, hfits.2.2.1, hfits.2.2.2⟩
  | done h =>
    rw [h] at hfits
    obtain ⟨hremaining, hcancelled, -, hclosings⟩ := hfits
    refine ⟨hc.counted, hc.remaining, hc.late, hc.told, hremaining, hcancelled, ?_⟩
    rw [hclosings, List.range_eq_range']
    rfl

theorem runs_kept {t : Time} (hrun : AppRuns a (a.begin t) c) : Kept a c := by
  induction hrun with
  | refl => exact kept_begin a t
  | tail _ hstep ih => exact hstep.elim ih.around ih.advances

/-- Closing begins when the runners have stopped, or had their time. -/
theorem Kept.stopped (hc : Kept a c) (hclosing : c.stage ≠ .waiting ∧ c.stage ≠ .stopping)
    (hlive : c.timedOut = false) : c.running = [] ∧ c.results = [] := by
  have hremaining : c.remaining = 0 := by
    have hfits := hc.fits
    unfold Course.Fits at hfits
    cases hstage : c.stage <;> rw [hstage] at hfits
    case waiting => exact absurd hstage hclosing.1
    case stopping => exact absurd hstage hclosing.2
    case closing => exact hfits.1
    case calling => exact hfits.1
    case returned => exact hfits.1
  have hnone := hc.remaining
  rw [hremaining, hlive] at hnone
  simp only [Bool.false_eq_true, if_false] at hnone
  exact ⟨List.length_eq_zero_iff.mp (by omega), List.length_eq_zero_iff.mp (by omega)⟩

/-- Nothing is closed before. -/
theorem Kept.closing (hc : Kept a c)
    (hclosing : (∃ left, c.stage = .calling left) ∨ c.closings ≠ []) :
    c.stage ≠ .waiting ∧ c.stage ≠ .stopping := by
  have hfits := hc.fits
  unfold Course.Fits at hfits
  rcases hclosing with ⟨left, hcalling⟩ | hclosings
  · simp [hcalling]
  · refine ⟨fun hstage => ?_, fun hstage => ?_⟩
    · rw [hstage] at hfits
      exact hclosings hfits.2.2.2
    · rw [hstage] at hfits
      exact hclosings hfits.2

end Kept

namespace Scenario

/-- Two runners and two resources. -/
def pair : App := ⟨2, 2, 30000000000, by decide⟩

def refused : RunError := ⟨"connection refused", []⟩

/-- One runner fails, the other one is cancelled, and the first resource cannot be closed. -/
theorem pair_runs : ∃ m c, AppRuns pair (pair.begin 0) m ∧ m.stage = .calling 1 ∧
    AppRuns pair m c ∧ c.stage = .returned ∧ c.timedOut = false ∧
    c.received = [some refused, none] ∧ c.closings = [(1, none), (0, some refused)] := by
  have hfirst : AppRuns pair (pair.begin 0) _ :=
    .tail (.tail .refl (.inl (.returns (some refused) (i := 0) (by decide) (by decide))))
      (.inr (.first rfl rfl))
  have hsecond := Relation.ReflTransGen.tail (Relation.ReflTransGen.tail hfirst
    (.inl (.returns (some ⟨"context canceled", [.canceled]⟩) (i := 1) (by decide) (by decide))))
      (.inr (.received rfl (by decide) rfl))
  have hcalled := Relation.ReflTransGen.tail (Relation.ReflTransGen.tail hsecond
    (.inr (.stopped rfl rfl))) (.inr (.close rfl))
  exact ⟨_, _, hcalled, rfl,
    .tail (.tail (.tail (.tail .refl (.inl (.closed none rfl))) (.inr (.close rfl)))
      (.inl (.closed (some refused) rfl))) (.inr (.done rfl)), rfl, rfl, rfl, rfl⟩

end Scenario

section Runs

variable {a : App} {c : Course} {t : Time}

/-- A closer is called only after every runner has returned, or had the whole timeout to do so
after it was cancelled; and when `Run` returns, each resource was closed once, the last one
first. -/
theorem run_closes (hrun : AppRuns a (a.begin t) c) :
    ((∃ left, c.stage = .calling left) ∨ c.closings ≠ [] → c.running = [] ∨
      ∃ t₀, c.cancelledAt = some t₀ ∧ t₀ + a.shutdownTimeout.toInt ≤ c.clock) ∧
    (c.stage = .returned → c.closings.map Prod.fst = (List.range a.closers).reverse) := by
  have hc := runs_kept hrun
  constructor
  · intro hclosing
    cases hout : c.timedOut with
    | true => exact Or.inr (hc.late hout)
    | false => exact Or.inl (hc.stopped (hc.closing hclosing) hout).1
  · intro hstage
    have hfits := hc.fits
    unfold Course.Fits at hfits
    rw [hstage] at hfits
    exact hfits.2.2

/-- Both resources are closed although the first runner failed. -/
theorem run_closes_pair : ∃ c, AppRuns Scenario.pair (Scenario.pair.begin 0) c ∧
    c.stage = .returned ∧ c.closings.map Prod.fst = (List.range 2).reverse := by
  obtain ⟨m, c, hfirst, -, hrest, hreturned, -⟩ := Scenario.pair_runs
  exact ⟨c, hfirst.trans hrest, hreturned, (run_closes (hfirst.trans hrest)).2 hreturned⟩

/-- What `Run` returns: the first error of a runner, in the order in which their results came
in; that runners did not stop, if so; and the errors of the closers. -/
theorem run_reports (hrun : AppRuns a (a.begin t) c) (hreturned : c.stage = .returned) :
    c.runErr = firstFault c.received ++
      (if c.timedOut then [.unstopped a.shutdownTimeout] else []) ++
        (c.closings.filterMap fun closing => closing.2.map Fault.close) ∧
    (c.timedOut = false → c.received.length = a.runners) := by
  have hc := runs_kept hrun
  refine ⟨hc.told, fun hlive => ?_⟩
  obtain ⟨hrunning, hresults⟩ := hc.stopped (by simp [hreturned]) hlive
  have hcounted := hc.counted
  rw [hrunning, hresults] at hcounted
  simpa using hcounted

/-- The error of the cancelled runner is dropped, and that of the closer joined. -/
theorem run_reports_pair : ∃ c, AppRuns Scenario.pair (Scenario.pair.begin 0) c ∧
    c.stage = .returned ∧ c.runErr = [.runner Scenario.refused, .close Scenario.refused] := by
  obtain ⟨m, c, hfirst, -, hrest, hreturned, hlive, hreceived, hclosings⟩ := Scenario.pair_runs
  have hrun := hfirst.trans hrest
  refine ⟨c, hrun, hreturned, ?_⟩
  rw [(run_reports hrun hreturned).1, hlive, hreceived, hclosings]
  rfl

/-- How many steps of `Run` and its closers are left at most. -/
def Course.rank (a : App) (c : Course) : Nat :=
  match c.stage with
  | .waiting => c.remaining + 2 * a.closers + 3
  | .stopping => c.remaining + 2 * a.closers + 2
  | .closing left => 2 * left + 1
  | .calling left => 2 * left + 2
  | .returned => 0

theorem Around.rank_le {c' : Course} (h : Around a c c') : c'.rank a ≤ c.rank a := by
  cases h with
  | closed err h => simp [Course.rank, h]
  | _ => exact le_rfl

theorem Advances.rank_lt {c' : Course} (h : Advances a c c') : c'.rank a < c.rank a := by
  cases h with
  | idle h hnone | ended h hparent =>
    simp only [Course.rank, Course.cancel, h]
    omega
  | first h hresults =>
    simp only [Course.rank, Course.cancel, Course.receive, h]
    omega
  | received h hremaining hresults =>
    simp only [Course.rank, Course.receive, h]
    omega
  | timeout h hremaining hcancelled hlate =>
    simp only [Course.rank, h]
    omega
  | stopped h hremaining =>
    simp only [Course.rank, h]
    omega
  | close h =>
    simp only [Course.rank, h]
    omega
  | done h =>
    simp only [Course.rank, h]
    omega

theorem rank_le_of_around {c' : Course} (h : Relation.ReflTransGen (Around a) c c') :
    c'.rank a ≤ c.rank a := by
  induction h with
  | refl => exact le_rfl
  | tail _ h ih => exact h.rank_le.trans ih

/-- Before it has cancelled its runners, `Run` goes on or waits for a runner. -/
theorem Kept.waits (hc : Kept a c) (hstage : c.stage = .waiting) :
    (∃ c', Advances a c c') ∨ c.running ≠ [] ∧ c.ended = false := by
  have hfits := hc.fits
  unfold Course.Fits at hfits
  rw [hstage] at hfits
  cases hresults : c.results with
  | cons err rest => exact Or.inl ⟨_, .first hstage hresults⟩
  | nil =>
    cases hparent : c.parent with
    | some cause => exact Or.inl ⟨_, .ended hstage (by rw [hparent]; rfl)⟩
    | none =>
      by_cases hrunning : c.running = []
      · refine Or.inl ⟨_, .idle hstage ?_⟩
        rw [hc.remaining, hrunning, hresults, hfits.2.1]
        rfl
      · refine Or.inr ⟨hrunning, ?_⟩
        rw [Course.ended, hparent, hfits.1]
        rfl

/-- After that it goes on, or waits for a runner and the timeout is not over. -/
theorem Kept.stops (hc : Kept a c) (hstage : c.stage = .stopping) :
    (∃ c', Advances a c c') ∨ c.running ≠ [] ∧ ∃ t₀, c.cancelledAt = some t₀ ∧
      c.clock < t₀ + a.shutdownTimeout.toInt := by
  have hfits := hc.fits
  unfold Course.Fits at hfits
  rw [hstage] at hfits
  obtain ⟨t₀, hcancelled⟩ := Option.isSome_iff_exists.mp hfits.1
  by_cases hremaining : c.remaining = 0
  · exact Or.inl ⟨_, .stopped hstage hremaining⟩
  have hpos := Nat.pos_of_ne_zero hremaining
  cases hresults : c.results with
  | cons err rest => exact Or.inl ⟨_, .received hstage hpos hresults⟩
  | nil =>
    by_cases hlate : t₀ + a.shutdownTimeout.toInt ≤ c.clock
    · exact Or.inl ⟨_, .timeout hstage hpos hcancelled hlate⟩
    · refine Or.inr ⟨fun hrunning => ?_, t₀, hcancelled, not_le.mp hlate⟩
      rw [hc.remaining, hrunning, hresults, hc.live hpos] at hremaining
      exact hremaining rfl

/-- `Run` takes finitely many steps, whatever happens around it. It waits for a runner, once the
runners are cancelled not longer than the timeout, or for the closer that it has called; and none
of them is kept from returning. -/
theorem run_ends (hrun : AppRuns a (a.begin t) c) :
    Acc (fun after before => ∃ m, Relation.ReflTransGen (Around a) before m ∧
      Advances a m after) c ∧
    (c.stage = .returned ∨ (∃ c', Advances a c c') ∨ (∃ left, c.stage = .calling left) ∨
      c.running ≠ [] ∧ ((c.stage = .waiting ∧ c.ended = false) ∨ ∃ t₀, c.stage = .stopping ∧
        c.cancelledAt = some t₀ ∧ c.clock < t₀ + a.shutdownTimeout.toInt)) ∧
    (∀ i ∈ c.running, ∀ err, ∃ c', Around a c c' ∧ c'.running = c.running.erase i ∧
      c'.results = c.results ++ [err]) ∧
    ∀ left, c.stage = .calling left → ∀ err, ∃ c', Around a c c' ∧ c'.stage = .closing left ∧
      c'.closings = c.closings ++ [(left, err)] := by
  have hc := runs_kept hrun
  refine ⟨?_, ?_, fun i hi err => ?_, fun left hcalling err => ⟨_, .closed err hcalling, rfl, rfl⟩⟩
  · refine Subrelation.accessible ?_ (InvImage.accessible (Course.rank a) (wellFounded_lt.apply _))
    rintro after before ⟨m, haround, hadvances⟩
    exact hadvances.rank_lt.trans_le (rank_le_of_around haround)
  · cases hstage : c.stage with
    | returned => exact Or.inl rfl
    | closing left =>
      right; left
      cases left with
      | zero => exact ⟨_, .done hstage⟩
      | succ left => exact ⟨_, .close hstage⟩
    | calling left => exact Or.inr (Or.inr (Or.inl ⟨left, rfl⟩))
    | waiting =>
      rcases hc.waits hstage with hadvances | ⟨hrunning, hended⟩
      · exact Or.inr (Or.inl hadvances)
      · exact Or.inr (Or.inr (Or.inr ⟨hrunning, Or.inl ⟨rfl, hended⟩⟩))
    | stopping =>
      rcases hc.stops hstage with hadvances | ⟨hrunning, t₀, hcancelled, hearly⟩
      · exact Or.inr (Or.inl hadvances)
      · exact Or.inr (Or.inr (Or.inr ⟨hrunning, Or.inr ⟨t₀, rfl, hcancelled, hearly⟩⟩))
  · have hroom : c.results.length < a.runners := by
      have hcounted := hc.counted
      have hpos := List.length_pos_of_mem hi
      omega
    exact ⟨_, .returns err hi hroom, rfl, rfl⟩

/-- The last resource is being closed, and the first one has not been. -/
theorem run_ends_calling : ∃ c, AppRuns Scenario.pair (Scenario.pair.begin 0) c ∧
    c.stage = .calling 1 ∧
    Acc (fun after before => ∃ m, Relation.ReflTransGen (Around Scenario.pair) before m ∧
      Advances Scenario.pair m after) c ∧
    ∃ c', Around Scenario.pair c c' ∧ c'.stage = .closing 1 ∧
      c'.closings = c.closings ++ [(1, none)] := by
  obtain ⟨c, -, hrun, hcalling, -⟩ := Scenario.pair_runs
  obtain ⟨hacc, -, -, hreturns⟩ := run_ends hrun
  exact ⟨c, hrun, hcalling, hacc, hreturns 1 hcalling none⟩

end Runs

end App

end RuleRaven
