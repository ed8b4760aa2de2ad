import Mathlib.Data.Finset.Card
import Mathlib.Logic.Relation

namespace RuleRaven.Framework

/-- What is seen of a queue of keys: the keys in the order in which they are handed out, those
that were added since they were last handed out, those that somebody works on, those that are to
be added later, and whether the queue is shut down. -/
structure QueueView (κ : Type) where
  queue : List κ := []
  dirty : Finset κ := ∅
  processing : Finset κ := ∅
  waiting : Finset κ := ∅
  shuttingDown : Bool := false

namespace QueueView

variable {κ : Type} [DecidableEq κ] {v : QueueView κ} {k : κ}

/-- A key is added. One that somebody works on is only marked, and none is queued twice. -/
def mark (v : QueueView κ) (k : κ) : QueueView κ :=
  if v.shuttingDown then v
  else { v with
    dirty := insert k v.dirty
    queue := if k ∈ v.dirty ∨ k ∈ v.processing then v.queue else v.queue ++ [k] }

/-- A key is to be added later. -/
def putOff (v : QueueView κ) (k : κ) : QueueView κ :=
  if v.shuttingDown then v else { v with waiting := insert k v.waiting }

theorem mark_closed (h : v.shuttingDown = true) : v.mark k = v := if_pos h

theorem mark_open (h : v.shuttingDown = false) :
    v.mark k = { v with
      dirty := insert k v.dirty
      queue := if k ∈ v.dirty ∨ k ∈ v.processing then v.queue else v.queue ++ [k] } :=
  if_neg (by simp [h])

theorem putOff_closed (h : v.shuttingDown = true) : v.putOff k = v := if_pos h

theorem putOff_open (h : v.shuttingDown = false) :
    v.putOff k = { v with waiting := insert k v.waiting } := if_neg (by simp [h])

@[simp] theorem mark_processing : (v.mark k).processing = v.processing := by
  unfold mark
  split_ifs <;> rfl

@[simp] theorem mark_waiting : (v.mark k).waiting = v.waiting := by
  unfold mark
  split_ifs <;> rfl

@[simp] theorem mark_shuttingDown : (v.mark k).shuttingDown = v.shuttingDown := by
  unfold mark
  split_ifs <;> rfl

theorem mem_mark {j : κ} (h : j ∈ (v.mark k).dirty) : j = k ∨ j ∈ v.dirty := by
  cases hclosed : v.shuttingDown with
  | true =>
    rw [mark_closed hclosed] at h
    exact Or.inr h
  | false =>
    rw [mark_open hclosed] at h
    exact Finset.mem_insert.mp h

theorem prefix_mark : v.queue <+: (v.mark k).queue := by
  unfold mark
  split_ifs
  · exact List.prefix_rfl
  · exact List.prefix_rfl
  · exact List.prefix_append _ _

@[simp] theorem putOff_queue : (v.putOff k).queue = v.queue := by
  unfold putOff
  split_ifs <;> rfl

@[simp] theorem putOff_dirty : (v.putOff k).dirty = v.dirty := by
  unfold putOff
  split_ifs <;> rfl

@[simp] theorem putOff_processing : (v.putOff k).processing = v.processing := by
  unfold putOff
  split_ifs <;> rfl

@[simp] theorem putOff_shuttingDown : (v.putOff k).shuttingDown = v.shuttingDown := by
  unfold putOff
  split_ifs <;> rfl

theorem mem_putOff {j : κ} (h : j ∈ (v.putOff k).waiting) : j = k ∨ j ∈ v.waiting := by
  cases hclosed : v.shuttingDown with
  | true =>
    rw [putOff_closed hclosed] at h
    exact Or.inr h
  | false =>
    rw [putOff_open hclosed] at h
    exact Finset.mem_insert.mp h

/-- The queue holds each marked key that nobody works on, once. -/
structure Ordered (v : QueueView κ) : Prop where
  nodup : v.queue.Nodup
  mem_queue : ∀ k, k ∈ v.queue ↔ k ∈ v.dirty ∧ k ∉ v.processing

omit [DecidableEq κ] in
/-- A key that is not queued may be put at the end. -/
theorem nodup_push {queue : List κ} (h : queue.Nodup) (hk : k ∉ queue) : (queue ++ [k]).Nodup := by
  rw [List.nodup_append]
  refine ⟨h, List.nodup_singleton k, ?_⟩
  intro a ha b hb heq
  rw [List.mem_singleton] at hb
  exact hk (hb ▸ heq ▸ ha)

theorem Ordered.mark (hv : Ordered v) (k : κ) : Ordered (v.mark k) := by
  cases hclosed : v.shuttingDown with
  | true => rwa [mark_closed hclosed]
  | false =>
    rw [mark_open hclosed]
    constructor
    · dsimp only
      split_ifs with hmarked
      · exact hv.nodup
      · exact nodup_push hv.nodup fun hqueued => hmarked (Or.inl ((hv.mem_queue k).mp hqueued).1)
    · intro j
      dsimp only
      have hj := hv.mem_queue j
      split_ifs with hmarked <;> by_cases hjk : j = k
      · subst hjk
        rw [hj, Finset.mem_insert]
        tauto
      · rw [hj, Finset.mem_insert]
        tauto
      · subst hjk
        simp [not_or.mp hmarked]
      · simp [hj, hjk]

/-- The first key is handed out. -/
theorem Ordered.taken (hv : Ordered v) {rest : List κ} (hqueue : v.queue = k :: rest) :
    Ordered { v with
      queue := rest
      processing := insert k v.processing
      dirty := v.dirty.erase k } := by
  have hnodup := hv.nodup
  rw [hqueue, List.nodup_cons] at hnodup
  refine ⟨hnodup.2, fun j => ?_⟩
  have hj := hv.mem_queue j
  rw [hqueue, List.mem_cons] at hj
  rw [Finset.mem_erase, Finset.mem_insert]
  by_cases hjk : j = k
  · subst hjk
    simp [hnodup.1]
  · simp only [hjk, false_or] at hj
    simp [hj, hjk]

/-- Work on a key ends, and it is queued if it was added meanwhile. -/
theorem Ordered.finished (hv : Ordered v) (hk : k ∈ v.processing) :
    Ordered { v with
      processing := v.processing.erase k
      queue := if k ∈ v.dirty then v.queue ++ [k] else v.queue } := by
  have hqueued : k ∉ v.queue := fun h => ((hv.mem_queue k).mp h).2 hk
  have hother : ∀ j, j ≠ k → (j ∈ v.queue ↔ j ∈ v.dirty ∧ j ∉ v.processing.erase k) := by
    intro j hj
    rw [hv.mem_queue, Finset.mem_erase]
    tauto
  split_ifs with hmarked
  · refine ⟨nodup_push hv.nodup hqueued, fun j => ?_⟩
    rw [List.mem_append, List.mem_singleton]
    by_cases hj : j = k
    · subst hj
      simp [hmarked]
    · simp [hother j hj, hj]
  · refine ⟨hv.nodup, fun j => ?_⟩
    by_cases hj : j = k
    · subst hj
      simp [hqueued, hmarked]
    · exact hother j hj

end QueueView

/-- A queue of keys for several workers, with the laws that its users go by. How long a key waits
is not among them. -/
structure Queue (κ : Type) [DecidableEq κ] where
  State : Type
  view : State → QueueView κ
  new : State
  add : State → κ → State
  /-- The next key, or none where the queue is shut down; nothing where a worker has to wait. -/
  get : State → Option (Option κ × State)
  done : State → κ → State
  addAfter : State → κ → Int → State
  addRateLimited : State → κ → State
  forget : State → κ → State
  /-- The time of a waiting key has come. -/
  fire : State → κ → State
  shutDown : State → State
  /-- Who shuts the queue down and waits for the workers need not wait any longer. -/
  drained : State → Bool
  view_new : view new = {}
  view_add : ∀ q k, view (add q k) = (view q).mark k
  get_key : ∀ q k q', get q = some (some k, q') →
    (view q).queue = k :: (view q').queue ∧ view q' =
      { view q with
        queue := (view q').queue
        processing := insert k (view q).processing
        dirty := (view q).dirty.erase k }
  get_shut : ∀ q q', get q = some (none, q') →
    (view q).queue = [] ∧ (view q).shuttingDown = true ∧ view q' = view q
  get_ready : ∀ q, (view q).queue ≠ [] ∨ (view q).shuttingDown = true → (get q).isSome
  view_done : ∀ q k, k ∈ (view q).processing → view (done q k) =
    { view q with
      processing := (view q).processing.erase k
      queue := if k ∈ (view q).dirty then (view q).queue ++ [k] else (view q).queue }
  view_addAfter : ∀ q k delay, 0 < delay → view (addAfter q k delay) = (view q).putOff k
  view_addRateLimited : ∀ q k, view (addRateLimited q k) = (view q).putOff k
  view_forget : ∀ q k, view (forget q k) = view q
  view_fire : ∀ q k, k ∈ (view q).waiting →
    view (fire q k) = { (view q).mark k with waiting := (view q).waiting.erase k }
  view_shutDown : ∀ q, view (shutDown q) = { view q with shuttingDown := true }
  processing_of_drained : ∀ q, drained q = true → (view q).processing = ∅

/-- What was done with a queue. -/
inductive QueueEvent (κ : Type) where
  | added (k : κ)
  | got (k : κ)
  | finished (k : κ)
  | delayed (k : κ)
  | forgotten (k : κ)
  deriving DecidableEq

def QueueEvent.isGot {κ : Type} : QueueEvent κ → Bool
  | .got _ => true
  | _ => false

/-- An event after which there was no `stop`. -/
def Since {ε : Type} (e stop : ε) (log : List ε) : Prop :=
  ∃ front back, log = front ++ e :: back ∧ stop ∉ back

section Since

variable {ε : Type} {e stop x : ε} {log : List ε}

@[simp] theorem not_since_nil : ¬Since e stop [] := by
  rintro ⟨front, back, h, -⟩
  simp at h

theorem since_snoc : Since e stop (log ++ [x]) ↔ x = e ∨ x ≠ stop ∧ Since e stop log := by
  constructor
  · rintro ⟨front, back, h, hstop⟩
    rcases List.eq_nil_or_concat back with rfl | ⟨back, y, rfl⟩
    · exact Or.inl (List.append_inj_right' h rfl |> List.cons.inj).1
    · rw [List.concat_eq_append, ← List.cons_append, ← List.append_assoc] at h
      obtain ⟨hlog, hx⟩ := List.append_inj' h rfl
      cases hx
      rw [List.concat_eq_append, List.mem_append, not_or, List.mem_singleton] at hstop
      exact Or.inr ⟨Ne.symm hstop.2, front, back, hlog, hstop.1⟩
  · rintro (rfl | ⟨hx, front, back, rfl, hstop⟩)
    · exact ⟨log, [], rfl, List.not_mem_nil⟩
    · refine ⟨front, back ++ [x], by simp, ?_⟩
      rw [List.mem_append, List.mem_singleton, not_or]
      exact ⟨hstop, Ne.symm hx⟩

theorem Since.append (h : Since e stop log) {more : List ε} (hmore : stop ∉ more) :
    Since e stop (log ++ more) := by
  obtain ⟨front, back, rfl, hstop⟩ := h
  refine ⟨front, back ++ more, by simp, ?_⟩
  rw [List.mem_append, not_or]
  exact ⟨hstop, hmore⟩

/-- What was not stopped at the end was stopped after each earlier occurrence. -/
theorem stop_of_not_since (h : ¬Since e stop log) {front back : List ε}
    (hlog : log = front ++ e :: back) : stop ∈ back := by
  by_contra hstop
  exact h ⟨front, back, hlog, hstop⟩

end Since

/-- A queue with a record of what was done with it. No operation reads the record. -/
structure Tracked {κ : Type} [DecidableEq κ] (Q : Queue κ) where
  state : Q.State := Q.new
  log : List (QueueEvent κ) := []

namespace Tracked

variable {κ : Type} [DecidableEq κ] {Q : Queue κ}

def view (q : Tracked Q) : QueueView κ := Q.view q.state

/-- What is done with a queue that is shut down is ignored. -/
def note (q : Tracked Q) (e : QueueEvent κ) : List (QueueEvent κ) :=
  if q.view.shuttingDown then q.log else q.log ++ [e]

def add (q : Tracked Q) (k : κ) : Tracked Q := ⟨Q.add q.state k, q.note (.added k)⟩

def get (q : Tracked Q) : Option (Option κ × Tracked Q) :=
  match Q.get q.state with
  | none => none
  | some (none, state) => some (none, ⟨state, q.log⟩)
  | some (some k, state) => some (some k, ⟨state, q.log ++ [.got k]⟩)

def done (q : Tracked Q) (k : κ) : Tracked Q := ⟨Q.done q.state k, q.log ++ [.finished k]⟩

def addAfter (q : Tracked Q) (k : κ) (delay : Int) : Tracked Q :=
  ⟨Q.addAfter q.state k delay, q.note (.delayed k)⟩

def addRateLimited (q : Tracked Q) (k : κ) : Tracked Q :=
  ⟨Q.addRateLimited q.state k, q.note (.delayed k)⟩

def forget (q : Tracked Q) (k : κ) : Tracked Q := ⟨Q.forget q.state k, q.log ++ [.forgotten k]⟩

def fire (q : Tracked Q) (k : κ) : Tracked Q := ⟨Q.fire q.state k, q.note (.added k)⟩

def shutDown (q : Tracked Q) : Tracked Q := ⟨Q.shutDown q.state, q.log⟩

def drained (q : Tracked Q) : Bool := Q.drained q.state

/-- One operation of users who only finish what they got, put off keys for a while, and let none
come due that does not wait. -/
inductive Operates : Tracked Q → Tracked Q → Prop
  | add (q : Tracked Q) (k : κ) : Operates q (q.add k)
  | get {q q' : Tracked Q} {k : Option κ} (h : q.get = some (k, q')) : Operates q q'
  | done {q : Tracked Q} {k : κ} (h : k ∈ q.view.processing) : Operates q (q.done k)
  | addAfter (q : Tracked Q) (k : κ) {delay : Int} (h : 0 < delay) : Operates q (q.addAfter k delay)
  | addRateLimited (q : Tracked Q) (k : κ) : Operates q (q.addRateLimited k)
  | forget (q : Tracked Q) (k : κ) : Operates q (q.forget k)
  | fire {q : Tracked Q} {k : κ} (h : k ∈ q.view.waiting) : Operates q (q.fire k)
  | shutDown (q : Tracked Q) : Operates q q.shutDown

section View

variable {q q' : Tracked Q} {k : κ}

@[simp] theorem view_empty : ({} : Tracked Q).view = {} := Q.view_new

@[simp] theorem view_add (q : Tracked Q) (k : κ) : (q.add k).view = q.view.mark k :=
  Q.view_add q.state k

theorem view_addAfter (q : Tracked Q) (k : κ) {delay : Int} (h : 0 < delay) :
    (q.addAfter k delay).view = q.view.putOff k := Q.view_addAfter q.state k delay h

@[simp] theorem view_addRateLimited (q : Tracked Q) (k : κ) :
    (q.addRateLimited k).view = q.view.putOff k := Q.view_addRateLimited q.state k

@[simp] theorem view_forget (q : Tracked Q) (k : κ) : (q.forget k).view = q.view :=
  Q.view_forget q.state k

theorem view_fire (h : k ∈ q.view.waiting) :
    (q.fire k).view = { q.view.mark k with waiting := q.view.waiting.erase k } :=
  Q.view_fire q.state k h

@[simp] theorem view_shutDown (q : Tracked Q) :
    q.shutDown.view = { q.view with shuttingDown := true } := Q.view_shutDown q.state

theorem view_done (h : k ∈ q.view.processing) : (q.done k).view =
    { q.view with
      processing := q.view.processing.erase k
      queue := if k ∈ q.view.dirty then q.view.queue ++ [k] else q.view.queue } :=
  Q.view_done q.state k h

/-- What somebody gets is the first key. -/
theorem get_eq_some (h : q.get = some (some k, q')) : q.view.queue = k :: q'.view.queue ∧
    q'.log = q.log ++ [.got k] ∧ q'.view =
      { q.view with
        queue := q'.view.queue
        processing := insert k q.view.processing
        dirty := q.view.dirty.erase k } := by
  unfold get at h
  split at h
  · cases h
  · cases h
  · rename_i hget
    cases h
    obtain ⟨hqueue, hview⟩ := Q.get_key _ _ _ hget
    exact ⟨hqueue, rfl, hview⟩

theorem get_eq_none (h : q.get = some (none, q')) :
    q'.view = q.view ∧ q'.log = q.log ∧ q.view.queue = [] ∧ q.view.shuttingDown = true := by
  unfold get at h
  split at h
  · cases h
  · rename_i hget
    cases h
    obtain ⟨hqueue, hclosed, hview⟩ := Q.get_shut _ _ hget
    exact ⟨hview, rfl, hqueue, hclosed⟩
  · cases h

theorem get_ready (h : q.view.queue = [] → q.view.shuttingDown = true) :
    ∃ key q', q.get = some (key, q') := by
  have hsome := Q.get_ready q.state (or_iff_not_imp_left.mpr fun hne => h (not_not.mp hne))
  obtain ⟨⟨_ | k, state⟩, hget⟩ := Option.isSome_iff_exists.mp hsome
  · exact ⟨none, ⟨state, q.log⟩, by simp [get, hget]⟩
  · exact ⟨some k, ⟨state, q.log ++ [.got k]⟩, by simp [get, hget]⟩

theorem note_open {e : QueueEvent κ} (h : q.view.shuttingDown = false) :
    q.note e = q.log ++ [e] := if_neg (by simp [h])

theorem note_closed {e : QueueEvent κ} (h : q.view.shuttingDown = true) : q.note e = q.log :=
  if_pos h

end View

/-- What is seen of a queue is what its log says: a key is marked from its addition until
somebody gets it, and worked on from then until it is finished; and a key that was put off is
marked or still waits. -/
structure Accounts (q : Tracked Q) : Prop where
  ordered : q.view.Ordered
  mem_dirty : ∀ k, k ∈ q.view.dirty ↔ Since (.added k) (.got k) q.log
  mem_processing : ∀ k, k ∈ q.view.processing ↔ Since (.got k) (.finished k) q.log
  due : ∀ k, Since (.delayed k) (.got k) q.log →
    q.view.shuttingDown = true ∨ k ∈ q.view.dirty ∨ k ∈ q.view.waiting

section Accounts

variable {q q' : Tracked Q} {k : κ}

theorem accounts_empty : Accounts ({} : Tracked Q) where
  ordered := ⟨by simp, by simp⟩
  mem_dirty k := by simp
  mem_processing k := by simp
  due k h := absurd h not_since_nil

/-- The account depends on what is seen and on the log. -/
theorem Accounts.congr (hq : Accounts q) (hview : q'.view = q.view) (hlog : q'.log = q.log) :
    Accounts q' := by
  obtain ⟨hordered, hdirty, hprocessing, hdue⟩ := hq
  rw [← hview] at hordered hdirty hprocessing hdue
  rw [← hlog] at hdirty hprocessing hdue
  exact ⟨hordered, hdirty, hprocessing, hdue⟩

/-- A key is added, and may stop to wait. -/
theorem Accounts.mark (hq : Accounts q) {waiting : Finset κ}
    (hwaiting : ∀ j ∈ q.view.waiting, j ≠ k → j ∈ waiting)
    (hview : q'.view = { q.view.mark k with waiting := waiting })
    (hlog : q'.log = q.note (.added k)) : Accounts q' := by
  have hordered : q'.view.Ordered := by
    rw [hview]
    exact ⟨(hq.ordered.mark k).nodup, (hq.ordered.mark k).mem_queue⟩
  cases hclosed : q.view.shuttingDown with
  | true =>
    rw [QueueView.mark_closed hclosed] at hview
    rw [note_closed hclosed] at hlog
    refine ⟨hordered, ?_, ?_, fun _ _ => Or.inl (by rw [hview]; exact hclosed)⟩
    · rw [hview, hlog]
      exact hq.mem_dirty
    · rw [hview, hlog]
      exact hq.mem_processing
  | false =>
    rw [QueueView.mark_open hclosed] at hview
    rw [note_open hclosed] at hlog
    refine ⟨hordered, fun j => ?_, fun j => ?_, fun j hj => ?_⟩
    · rw [hview, hlog, Finset.mem_insert, since_snoc, hq.mem_dirty]
      simp [eq_comm]
    · rw [hview, hlog, since_snoc, hq.mem_processing]
      simp
    · rw [hlog, since_snoc] at hj
      have hold := hq.due j (by simpa using hj)
      have hkept := hwaiting j
      rw [hview, Finset.mem_insert]
      tauto

theorem Accounts.add (hq : Accounts q) (k : κ) : Accounts (q.add k) := by
  refine hq.mark (fun j hj _ => hj) ?_ rfl
  rw [view_add, ← QueueView.mark_waiting]

theorem Accounts.fire (hq : Accounts q) (hk : k ∈ q.view.waiting) : Accounts (q.fire k) :=
  hq.mark (fun _ hj hne => Finset.mem_erase.mpr ⟨hne, hj⟩) (view_fire hk) rfl

theorem Accounts.get (hq : Accounts q) {key : Option κ} (h : q.get = some (key, q')) :
    Accounts q' := by
  cases key with
  | none =>
    obtain ⟨hview, hlog, -, -⟩ := get_eq_none h
    exact hq.congr hview hlog
  | some k =>
    obtain ⟨hqueue, hlog, hview⟩ := get_eq_some h
    have hordered := hq.ordered.taken hqueue
    rw [← hview] at hordered
    refine ⟨hordered, fun j => ?_, fun j => ?_, fun j hj => ?_⟩
    · rw [hview, hlog, Finset.mem_erase, since_snoc, hq.mem_dirty]
      simp [eq_comm]
    · rw [hview, hlog, Finset.mem_insert, since_snoc, hq.mem_processing]
      simp [eq_comm]
    · rw [hlog, since_snoc] at hj
      obtain ⟨hne, hold⟩ : k ≠ j ∧ Since (.delayed j) (.got j) q.log := by simpa using hj
      rw [hview, Finset.mem_erase]
      have hdue := hq.due j hold
      tauto

theorem Accounts.done (hq : Accounts q) (hk : k ∈ q.view.processing) : Accounts (q.done k) := by
  have hlog : (q.done k).log = q.log ++ [.finished k] := rfl
  refine ⟨?_, fun j => ?_, fun j => ?_, fun j hj => ?_⟩
  · rw [view_done hk]
    exact hq.ordered.finished hk
  · rw [view_done hk, hlog, since_snoc, hq.mem_dirty]
    simp
  · rw [view_done hk, hlog, Finset.mem_erase, since_snoc, hq.mem_processing]
    simp [eq_comm]
  · rw [hlog, since_snoc] at hj
    rw [view_done hk]
    exact hq.due j (by simpa using hj)

theorem Accounts.putOff (hq : Accounts q) (hview : q'.view = q.view.putOff k)
    (hlog : q'.log = q.note (.delayed k)) : Accounts q' := by
  cases hclosed : q.view.shuttingDown with
  | true =>
    rw [QueueView.putOff_closed hclosed] at hview
    rw [note_closed hclosed] at hlog
    exact hq.congr hview hlog
  | false =>
    rw [QueueView.putOff_open hclosed] at hview
    rw [note_open hclosed] at hlog
    refine ⟨?_, fun j => ?_, fun j => ?_, fun j hj => ?_⟩
    · rw [hview]
      exact ⟨hq.ordered.nodup, hq.ordered.mem_queue⟩
    · rw [hview, hlog, since_snoc, hq.mem_dirty]
      simp
    · rw [hview, hlog, since_snoc, hq.mem_processing]
      simp
    · rw [hview, Finset.mem_insert]
      rw [hlog, since_snoc] at hj
      rcases hj with hj | ⟨-, hj⟩
      · cases hj
        exact Or.inr (Or.inr (Or.inl rfl))
      · have hold := hq.due j hj
        tauto

theorem Accounts.forget (hq : Accounts q) (k : κ) : Accounts (q.forget k) := by
  have hlog : (q.forget k).log = q.log ++ [.forgotten k] := rfl
  refine ⟨?_, fun j => ?_, fun j => ?_, fun j hj => ?_⟩
  · rw [view_forget]
    exact hq.ordered
  · rw [view_forget, hlog, since_snoc, hq.mem_dirty]
    simp
  · rw [view_forget, hlog, since_snoc, hq.mem_processing]
    simp
  · rw [hlog, since_snoc] at hj
    rw [view_forget]
    exact hq.due j (by simpa using hj)

theorem Accounts.shutDown (hq : Accounts q) : Accounts q.shutDown := by
  refine ⟨?_, fun j => ?_, fun j => ?_, fun _ _ => ?_⟩
  · rw [view_shutDown]
    exact ⟨hq.ordered.nodup, hq.ordered.mem_queue⟩
  · rw [view_shutDown]
    exact hq.mem_dirty j
  · rw [view_shutDown]
    exact hq.mem_processing j
  · rw [view_shutDown]
    exact Or.inl rfl

/-- Every operation keeps the account. -/
theorem Operates.accounts (h : Operates q q') (hq : Accounts q) : Accounts q' := by
  cases h with
  | add k => exact hq.add k
  | get h => exact hq.get h
  | done h => exact hq.done h
  | addAfter k h => exact hq.putOff (view_addAfter q k h) rfl
  | addRateLimited k => exact hq.putOff (view_addRateLimited q k) rfl
  | forget k => exact hq.forget k
  | fire h => exact hq.fire h
  | shutDown => exact hq.shutDown

end Accounts

section Quiet

variable {q q' : Tracked Q} {k : κ}

/-- What an operation does that neither starts nor ends work on a key. -/
structure Quiet (q q' : Tracked Q) : Prop where
  processing : q'.view.processing = q.view.processing
  queue : q.view.queue <+: q'.view.queue
  log : ∃ events, q'.log = q.log ++ events ∧ ∀ e ∈ events, e.isGot = false

theorem Quiet.of_eq (hview : q'.view = q.view) (hlog : q'.log = q.log) : Quiet q q' :=
  ⟨by rw [hview], by rw [hview], [], by simp [hlog], by simp⟩

theorem Quiet.refl (q : Tracked Q) : Quiet q q := .of_eq rfl rfl

theorem note_eq_append (q : Tracked Q) {e : QueueEvent κ} (he : e.isGot = false) :
    ∃ events, q.note e = q.log ++ events ∧ ∀ e ∈ events, e.isGot = false := by
  unfold note
  split_ifs
  · exact ⟨[], by simp, by simp⟩
  · exact ⟨[e], rfl, by simpa using he⟩

theorem quiet_add (q : Tracked Q) (k : κ) : Quiet q (q.add k) where
  processing := by rw [view_add, QueueView.mark_processing]
  queue := by
    rw [view_add]
    exact QueueView.prefix_mark
  log := note_eq_append q rfl

theorem quiet_fire (h : k ∈ q.view.waiting) : Quiet q (q.fire k) where
  processing := by rw [view_fire h, QueueView.mark_processing]
  queue := by
    rw [view_fire h]
    exact QueueView.prefix_mark
  log := note_eq_append q rfl

theorem quiet_putOff (hview : q'.view = q.view.putOff k) (hlog : q'.log = q.note (.delayed k)) :
    Quiet q q' where
  processing := by rw [hview, QueueView.putOff_processing]
  queue := by rw [hview, QueueView.putOff_queue]
  log := hlog ▸ note_eq_append q rfl

theorem quiet_addAfter (q : Tracked Q) (k : κ) {delay : Int} (h : 0 < delay) :
    Quiet q (q.addAfter k delay) := quiet_putOff (view_addAfter q k h) rfl

theorem quiet_addRateLimited (q : Tracked Q) (k : κ) : Quiet q (q.addRateLimited k) :=
  quiet_putOff (view_addRateLimited q k) rfl

theorem quiet_forget (q : Tracked Q) (k : κ) : Quiet q (q.forget k) :=
  ⟨by rw [view_forget], by rw [view_forget], [.forgotten k], rfl, by simp [QueueEvent.isGot]⟩

theorem quiet_shutDown (q : Tracked Q) : Quiet q q.shutDown :=
  ⟨by rw [view_shutDown], by rw [view_shutDown], [], by simp [shutDown], by simp⟩

theorem quiet_get (h : q.get = some (none, q')) : Quiet q q' :=
  .of_eq (get_eq_none h).1 (get_eq_none h).2.1

/-- An operation is quiet, or it starts or ends work on a key. -/
theorem Operates.quiet_or (h : Operates q q') : Quiet q q' ∨
    (∃ k, q.get = some (some k, q')) ∨ ∃ k ∈ q.view.processing, q' = q.done k := by
  cases h with
  | add k => exact Or.inl (quiet_add q k)
  | @get _ key h =>
    cases key with
    | none => exact Or.inl (quiet_get h)
    | some k => exact Or.inr (Or.inl ⟨k, h⟩)
  | done h => exact Or.inr (Or.inr ⟨_, h, rfl⟩)
  | addAfter k h => exact Or.inl (quiet_addAfter q k h)
  | addRateLimited k => exact Or.inl (quiet_addRateLimited q k)
  | forget k => exact Or.inl (quiet_forget q k)
  | fire h => exact Or.inl (quiet_fire h)
  | shutDown => exact Or.inl (quiet_shutDown q)

end Quiet

section Order

variable {q q' : Tracked Q} {k : κ}

/-- What an operation does to the order: it puts keys at the end, or takes the first one. -/
theorem Operates.order (h : Operates q q') :
    (∃ events, q.view.queue <+: q'.view.queue ∧ q'.log = q.log ++ events ∧
      ∀ e ∈ events, e.isGot = false) ∨
    ∃ first, q.view.queue = first :: q'.view.queue ∧ q'.log = q.log ++ [.got first] := by
  rcases h.quiet_or with h | ⟨first, h⟩ | ⟨j, hj, rfl⟩
  · obtain ⟨events, hlog, hnone⟩ := h.log
    exact Or.inl ⟨events, h.queue, hlog, hnone⟩
  · obtain ⟨hqueue, hlog, -⟩ := get_eq_some h
    exact Or.inr ⟨first, hqueue, hlog⟩
  · refine Or.inl ⟨[.finished j], ?_, rfl, by simp [QueueEvent.isGot]⟩
    rw [view_done hj]
    dsimp only
    split_ifs
    · exact List.prefix_append _ _
    · exact List.prefix_rfl

/-- A queued key is never overtaken: until somebody gets it, each start brings it one place
further. -/
theorem operates_rank (h : Relation.ReflTransGen Operates q q') (hk : k ∈ q.view.queue) :
    ∃ events, q'.log = q.log ++ events ∧ (.got k ∉ events → k ∈ q'.view.queue ∧
      q'.view.queue.idxOf k + events.countP QueueEvent.isGot = q.view.queue.idxOf k) := by
  induction h with
  | refl => exact ⟨[], by simp, fun _ => ⟨hk, by simp⟩⟩
  | tail _ hstep ih =>
    obtain ⟨events, hlog, hrank⟩ := ih
    rcases hstep.order with ⟨more, ⟨pushed, hqueue⟩, hmore, hnone⟩ | ⟨first, hqueue, hmore⟩
    · refine ⟨events ++ more, by rw [hmore, hlog, List.append_assoc], fun hgot => ?_⟩
      rw [List.mem_append, not_or] at hgot
      obtain ⟨hmem, hsum⟩ := hrank hgot.1
      have hzero : more.countP QueueEvent.isGot = 0 := by
        rw [List.countP_eq_zero]
        intro e he
        simp [hnone e he]
      rw [← hqueue, List.idxOf_append_of_mem hmem, List.countP_append, hzero]
      exact ⟨List.mem_append_left _ hmem, hsum⟩
    · refine ⟨events ++ [.got first], by rw [hmore, hlog, List.append_assoc], fun hgot => ?_⟩
      rw [List.mem_append, not_or, List.mem_singleton] at hgot
      obtain ⟨hmem, hsum⟩ := hrank hgot.1
      have hne : first ≠ k := fun heq => hgot.2 (heq ▸ rfl)
      rw [hqueue, List.idxOf_cons_ne _ hne] at hsum
      rw [hqueue, List.mem_cons] at hmem
      refine ⟨hmem.resolve_left (Ne.symm hne), ?_⟩
      rw [List.countP_append]
      simp only [List.countP_cons, List.countP_nil, QueueEvent.isGot, if_pos]
      omega

end Order

section Drain

variable {q q' : Tracked Q}

/-- How often a key is still to be started once nothing is added any more. -/
def owed (q : Tracked Q) (k : κ) : Nat := if k ∈ q.view.dirty then 1 else 0

theorem owed_eq (h : q'.view.dirty = q.view.dirty) (k : κ) : owed q' k = owed q k := by
  rw [owed, owed, h]

/-- After the shutdown only a start changes what is marked. -/
theorem Operates.dirty_closed (h : Operates q q') (hclosed : q.view.shuttingDown = true) :
    q'.view.shuttingDown = true ∧ ((∃ k, q.get = some (some k, q')) ∨
      q'.view.dirty = q.view.dirty ∧ ∃ events, q'.log = q.log ++ events ∧
        ∀ e ∈ events, e.isGot = false) := by
  cases h with
  | add j =>
    rw [view_add, QueueView.mark_closed hclosed]
    exact ⟨hclosed, Or.inr ⟨rfl, (quiet_add q j).log⟩⟩
  | @get _ key h =>
    cases key with
    | none =>
      rw [(get_eq_none h).1]
      exact ⟨hclosed, Or.inr ⟨rfl, (quiet_get h).log⟩⟩
    | some first =>
      refine ⟨?_, Or.inl ⟨first, h⟩⟩
      rw [(get_eq_some h).2.2]
      exact hclosed
  | @done j h =>
    rw [view_done h]
    exact ⟨hclosed, Or.inr ⟨rfl, [.finished j], rfl, by simp [QueueEvent.isGot]⟩⟩
  | addAfter j h =>
    rw [view_addAfter q j h, QueueView.putOff_closed hclosed]
    exact ⟨hclosed, Or.inr ⟨rfl, (quiet_addAfter q j h).log⟩⟩
  | addRateLimited j =>
    rw [view_addRateLimited, QueueView.putOff_closed hclosed]
    exact ⟨hclosed, Or.inr ⟨rfl, (quiet_addRateLimited q j).log⟩⟩
  | forget j =>
    rw [view_forget]
    exact ⟨hclosed, Or.inr ⟨rfl, (quiet_forget q j).log⟩⟩
  | fire h =>
    rw [view_fire h, QueueView.mark_closed hclosed]
    exact ⟨hclosed, Or.inr ⟨rfl, (quiet_fire h).log⟩⟩
  | shutDown =>
    rw [view_shutDown]
    exact ⟨rfl, Or.inr ⟨rfl, (quiet_shutDown q).log⟩⟩

/-- An operation on a queue that is shut down starts what is owed, and marks nothing. -/
theorem Operates.closed (h : Operates q q') (hq : Accounts q)
    (hclosed : q.view.shuttingDown = true) :
    q'.view.shuttingDown = true ∧ ∃ events, q'.log = q.log ++ events ∧
      ∀ k, events.count (.got k) + owed q' k = owed q k := by
  obtain ⟨hclosed', ⟨first, hget⟩ | ⟨hdirty, events, hlog, hnone⟩⟩ := h.dirty_closed hclosed
  · obtain ⟨hqueue, hlog, hview⟩ := get_eq_some hget
    refine ⟨hclosed', [.got first], hlog, fun k => ?_⟩
    have hmarked : first ∈ q.view.dirty := ((hq.ordered.mem_queue first).mp (by simp [hqueue])).1
    rw [owed, owed, hview]
    by_cases hk : k = first
    · subst hk
      simp [hmarked]
    · simp [hk, Ne.symm hk]
  · refine ⟨hclosed', events, hlog, fun k => ?_⟩
    have hgot : .got k ∉ events := fun hk => absurd (hnone _ hk) (by simp [QueueEvent.isGot])
    rw [List.count_eq_zero.mpr hgot, Nat.zero_add, owed_eq hdirty]

end Drain

section About

variable {P : κ → Prop} {q q' : Tracked Q} {k : κ}

/-- Every key that is about has a property. -/
structure About (P : κ → Prop) (q : Tracked Q) : Prop where
  dirty : ∀ k ∈ q.view.dirty, P k
  processing : ∀ k ∈ q.view.processing, P k
  waiting : ∀ k ∈ q.view.waiting, P k

theorem About.congr (hq : About P q) (hview : q'.view = q.view) : About P q' :=
  ⟨hview ▸ hq.dirty, hview ▸ hq.processing, hview ▸ hq.waiting⟩

theorem About.shutDown (hq : About P q) : About P q.shutDown := by
  refine ⟨?_, ?_, ?_⟩ <;> rw [view_shutDown]
  · exact hq.dirty
  · exact hq.processing
  · exact hq.waiting

theorem About.mark (hq : About P q) (hk : P k) {waiting : Finset κ}
    (hwaiting : waiting ⊆ q.view.waiting)
    (hview : q'.view = { q.view.mark k with waiting := waiting }) : About P q' := by
  refine ⟨fun j hj => ?_, ?_, fun j hj => ?_⟩
  · rw [hview] at hj
    rcases QueueView.mem_mark hj with rfl | hj
    · exact hk
    · exact hq.dirty j hj
  · rw [hview, QueueView.mark_processing]
    exact hq.processing
  · rw [hview] at hj
    exact hq.waiting j (hwaiting hj)

theorem About.add (hq : About P q) (hk : P k) : About P (q.add k) := by
  refine hq.mark hk (Finset.Subset.refl _) ?_
  rw [view_add, ← QueueView.mark_waiting]

theorem About.fire (hq : About P q) (hk : k ∈ q.view.waiting) : About P (q.fire k) :=
  hq.mark (hq.waiting k hk) (Finset.erase_subset k _) (view_fire hk)

theorem About.get (hq : About P q) (haccounts : Accounts q) {key : Option κ}
    (h : q.get = some (key, q')) : About P q' := by
  cases key with
  | none => exact hq.congr (get_eq_none h).1
  | some first =>
    obtain ⟨hqueue, -, hview⟩ := get_eq_some h
    refine ⟨fun j hj => ?_, fun j hj => ?_, ?_⟩
    · rw [hview] at hj
      exact hq.dirty j (Finset.mem_of_mem_erase hj)
    · rw [hview] at hj
      rcases Finset.mem_insert.mp hj with rfl | hj
      · exact hq.dirty j ((haccounts.ordered.mem_queue j).mp (by simp [hqueue])).1
      · exact hq.processing j hj
    · rw [hview]
      exact hq.waiting

theorem About.done (hq : About P q) (hk : k ∈ q.view.processing) : About P (q.done k) := by
  refine ⟨?_, fun j hj => ?_, ?_⟩
  · rw [view_done hk]
    exact hq.dirty
  · rw [view_done hk] at hj
    exact hq.processing j (Finset.mem_of_mem_erase hj)
  · rw [view_done hk]
    exact hq.waiting

theorem About.putOff (hq : About P q) (hk : P k) (hview : q'.view = q.view.putOff k) :
    About P q' := by
  refine ⟨?_, ?_, fun j hj => ?_⟩
  · rw [hview, QueueView.putOff_dirty]
    exact hq.dirty
  · rw [hview, QueueView.putOff_processing]
    exact hq.processing
  · rw [hview] at hj
    rcases QueueView.mem_putOff hj with rfl | hj
    · exact hk
    · exact hq.waiting j hj

end About

end Tracked

/-- The queue of which everything is seen. -/
def workQueue (κ : Type) [DecidableEq κ] : Queue κ where
  State := QueueView κ
  view := id
  new := {}
  add := QueueView.mark
  get v :=
    match v.queue with
    | [] => if v.shuttingDown then some (none, v) else none
    | k :: rest => some (some k,
        { v with queue := rest, processing := insert k v.processing, dirty := v.dirty.erase k })
  done v k :=
    { v with
      processing := v.processing.erase k
      queue := if k ∈ v.dirty then v.queue ++ [k] else v.queue }
  addAfter v k _ := v.putOff k
  addRateLimited := QueueView.putOff
  forget v _ := v
  fire v k := { v.mark k with waiting := v.waiting.erase k }
  shutDown v := { v with shuttingDown := true }
  drained v := decide (v.processing = ∅)
  view_new := rfl
  view_add _ _ := rfl
  get_key v k v' h := by
    split at h
    · split_ifs at h
      cases h
    · rename_i hqueue
      cases h
      exact ⟨hqueue, rfl⟩
  get_shut v v' h := by
    split at h
    · rename_i hqueue
      split_ifs at h with hclosed
      cases h
      exact ⟨hqueue, hclosed, rfl⟩
    · cases h
  get_ready v h := by
    split
    · rename_i hqueue
      have hclosed : v.shuttingDown = true := h.resolve_left fun hne => hne hqueue
      rw [if_pos hclosed]
      rfl
    · rfl
  view_done _ _ _ := rfl
  view_addAfter _ _ _ _ := rfl
  view_addRateLimited _ _ := rfl
  view_forget _ _ := rfl
  view_fire _ _ _ := rfl
  view_shutDown _ := rfl
  processing_of_drained _ h := of_decide_eq_true h

end RuleRaven.Framework
